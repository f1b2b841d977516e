import Rdmalib2.Cq.Accounting

set_option autoImplicit false

/-!
# A queue of completions

Completions are taken in the order they arrived in: what a queue has given out is a prefix of
what has arrived, and nothing else about it can change.
-/

namespace Rdmalib2

open Shared

structure Fifo where
  arrived : List IbvWc
  head : Nat
  polls : Nat := 0
  within : head ≤ arrived.length

namespace Fifo

def removed (cq : Fifo) : List IbvWc := cq.arrived.take cq.head

def queue (cq : Fifo) : List IbvWc := cq.arrived.drop cq.head

def arrive (cq : Fifo) (entries : List IbvWc) : Fifo where
  arrived := cq.arrived ++ entries
  head := cq.head
  polls := cq.polls
  within := by
    have := cq.within
    rw [List.length_append]
    omega

def remove (cq : Fifo) (count : Nat) : Fifo where
  arrived := cq.arrived
  head := min (cq.head + count) cq.arrived.length
  polls := cq.polls + 1
  within := Nat.min_le_right ..

@[simp] theorem arrive_removed (cq : Fifo) (entries : List IbvWc) :
    (cq.arrive entries).removed = cq.removed :=
  List.take_append_of_le_length cq.within

theorem remove_removed (cq : Fifo) (count : Nat) :
    (cq.remove count).removed = cq.removed ++ cq.queue.take count := by
  simp only [removed, remove, queue, ← List.take_add]
  exact List.take_eq_take_iff.mpr (by omega)

end Fifo

/-- Before its answer to each poll a schedule lets completions arrive, and it limits the
answer. -/
def Fifo.driver (schedule : Nat → List IbvWc × Nat) : CqDriver Fifo where
  poll cq k :=
    let cq := cq.arrive (schedule cq.polls).1
    let count := min (schedule cq.polls).2 k.toNat
    (.completed (cq.queue.take count), cq.remove count)
  within := by
    intro cq k
    simp only [PollReply.entries, List.length_take]
    omega

theorem Fifo.driver_steady (schedule : Nat → List IbvWc × Nat) : (Fifo.driver schedule).Steady :=
  fun _ _ _ => nofun

theorem Fifo.driver_removed (schedule : Nat → List IbvWc × Nat) (cq : Fifo) (k : Int) :
    ((Fifo.driver schedule).poll cq k).2.removed =
      cq.removed ++ ((Fifo.driver schedule).poll cq k).1.entries := by
  simp only [driver, remove_removed, arrive_removed, PollReply.entries]

end Rdmalib2
