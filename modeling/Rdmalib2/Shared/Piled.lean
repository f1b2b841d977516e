import Mathlib.Data.List.Basic

set_option autoImplicit false

/-!
# Things that rest on others

A pile is read from the top down. Each thing on it occurs once and rests on things below it only,
so that nothing rests on the top, and a part on which nothing above it rests can be put on top.
-/

namespace Shared

universe u

variable {α : Type u}

-- A pile on a base that is already there.
def PiledOn (rests : α → α → Prop) (base : List α) : List α → Prop
  | [] => True
  | top :: rest =>
      top ∉ rest ++ base ∧ (∀ other, rests top other → other ∈ rest ++ base) ∧
        PiledOn rests base rest

def Piled (rests : α → α → Prop) (pile : List α) : Prop := PiledOn rests [] pile

section piles

variable {rests : α → α → Prop} {base upper lower pile : List α} {top : α}

theorem piledOn_append :
    PiledOn rests base (upper ++ lower) ↔
      PiledOn rests (lower ++ base) upper ∧ PiledOn rests base lower := by
  induction upper with
  | nil => simp [PiledOn]
  | cons first upper ih => simp only [List.cons_append, PiledOn, ih, List.append_assoc, and_assoc]

theorem piled_append :
    Piled rests (upper ++ lower) ↔ PiledOn rests lower upper ∧ Piled rests lower := by
  have both := @piledOn_append _ rests [] upper lower
  rwa [List.append_nil] at both

theorem PiledOn.apart (piled : PiledOn rests base pile) {member : α} (listed : member ∈ pile) :
    member ∉ base := by
  induction pile with
  | nil => cases listed
  | cons first rest ih =>
    obtain ⟨fresh, -, later⟩ := piled
    rcases List.mem_cons.mp listed with rfl | below
    · exact fun based => fresh (List.mem_append_right _ based)
    · exact ih later below

theorem PiledOn.closed (piled : PiledOn rests base pile) {member other : α}
    (listed : member ∈ pile) (on : rests member other) : other ∈ pile ++ base := by
  induction pile with
  | nil => cases listed
  | cons first rest ih =>
    obtain ⟨-, supported, later⟩ := piled
    rcases List.mem_cons.mp listed with rfl | below
    · exact List.mem_cons_of_mem _ (supported other on)
    · exact List.mem_cons_of_mem _ (ih later below)

/-- Nothing on a pile rests on its top. -/
theorem Piled.top_free (piled : Piled rests (top :: pile)) {member : α}
    (listed : member ∈ top :: pile) : ¬ rests member top := by
  obtain ⟨fresh, supported, later⟩ := piled
  intro on
  rcases List.mem_cons.mp listed with rfl | below
  · exact fresh (supported member on)
  · exact fresh (PiledOn.closed later below on)

/-- What rests on something lies above it. -/
theorem Piled.earlier {before after : List α} (piled : Piled rests (before ++ top :: after))
    {member : α} (listed : member ∈ before ++ top :: after) (on : rests member top) :
    member ∈ before := by
  rcases List.mem_append.mp listed with above | below
  · exact above
  · exact absurd on ((piled_append.mp piled).2.top_free below)

theorem Piled.push (piled : Piled rests pile) (fresh : top ∉ pile)
    (supported : ∀ other, rests top other → other ∈ pile) : Piled rests (top :: pile) := by
  refine ⟨?_, ?_, piled⟩
  · rwa [List.append_nil]
  · simpa using supported

theorem PiledOn.congr {rests' : α → α → Prop} (piled : PiledOn rests base pile)
    (same : ∀ member ∈ pile, ∀ other, rests' member other → rests member other) :
    PiledOn rests' base pile := by
  induction pile with
  | nil => trivial
  | cons first rest ih =>
    obtain ⟨fresh, supported, later⟩ := piled
    obtain ⟨here, below⟩ := List.forall_mem_cons.mp same
    exact ⟨fresh, fun other on => supported other (here other on), ih later below⟩

-- What nothing on a pile rests on may be pulled out from under it.
theorem PiledOn.without {part : List α} (piled : PiledOn rests (part ++ base) pile)
    (free : ∀ member ∈ pile, ∀ other ∈ part, ¬ rests member other) : PiledOn rests base pile := by
  induction pile with
  | nil => trivial
  | cons first rest ih =>
    obtain ⟨fresh, supported, later⟩ := piled
    obtain ⟨here, below⟩ := List.forall_mem_cons.mp free
    simp only [List.mem_append, not_or] at fresh
    refine ⟨by simp [fresh], fun other on => ?_, ih later below⟩
    have found := supported other on
    simp only [List.mem_append] at found ⊢
    rcases found with above | inside | under
    · exact .inl above
    · exact absurd on (here other inside)
    · exact .inr under

theorem PiledOn.widen {part : List α} (piled : PiledOn rests base pile)
    (apart : ∀ member ∈ pile, member ∉ part) : PiledOn rests (part ++ base) pile := by
  induction pile with
  | nil => trivial
  | cons first rest ih =>
    obtain ⟨fresh, supported, later⟩ := piled
    obtain ⟨here, below⟩ := List.forall_mem_cons.mp apart
    simp only [List.mem_append, not_or] at fresh
    refine ⟨by simp [fresh, here], fun other on => ?_, ih later below⟩
    have found := supported other on
    simp only [List.mem_append] at found ⊢
    exact found.imp_right .inr

/-- A part on which nothing above it rests can be put on top. -/
theorem Piled.raise {part : List α} (piled : Piled rests (upper ++ (part ++ base)))
    (free : ∀ member ∈ upper, ∀ other ∈ part, ¬ rests member other) :
    Piled rests (part ++ (upper ++ base)) := by
  obtain ⟨above, below⟩ := piled_append.mp piled
  obtain ⟨inner, under⟩ := piled_append.mp below
  have apart : ∀ member ∈ part, member ∉ upper := fun member inside listed =>
    above.apart listed (List.mem_append_left base inside)
  exact piled_append.mpr ⟨inner.widen apart, piled_append.mpr ⟨above.without free, under⟩⟩

theorem PiledOn.regroup {base' : List α} (piled : PiledOn rests base pile)
    (same : ∀ member, member ∈ base' ↔ member ∈ base) : PiledOn rests base' pile := by
  induction pile with
  | nil => trivial
  | cons first rest ih =>
    obtain ⟨fresh, supported, later⟩ := piled
    simp only [List.mem_append] at fresh supported
    refine ⟨?_, ?_, ih later⟩
    · simpa only [List.mem_append, same] using fresh
    · simpa only [List.mem_append, same] using supported

theorem Piled.without {part : List α} (piled : Piled rests (upper ++ (part ++ base)))
    (free : ∀ member ∈ upper, ∀ other ∈ part, ¬ rests member other) :
    Piled rests (upper ++ base) := by
  obtain ⟨above, below⟩ := piled_append.mp piled
  exact piled_append.mpr ⟨above.without free, (piled_append.mp below).2⟩

/-- Two neighbouring parts trade places when the upper one does not rest on the lower one. -/
theorem Piled.trade {part other : List α} (piled : Piled rests (upper ++ (part ++ (other ++ base))))
    (free : ∀ member ∈ part, ∀ below ∈ other, ¬ rests member below) :
    Piled rests (upper ++ (other ++ (part ++ base))) := by
  obtain ⟨above, below⟩ := piled_append.mp piled
  refine piled_append.mpr ⟨above.regroup fun member => ?_, below.raise free⟩
  simp only [List.mem_append]
  tauto

end piles

end Shared
