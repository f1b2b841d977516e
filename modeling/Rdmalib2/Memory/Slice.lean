import Rdmalib2.Common
import Rdmalib2.Shared.Extent
import Rdmalib2.Shared.Run
import Mathlib.Data.UInt

set_option autoImplicit false

namespace Rdmalib2

open Shared

structure IbvMr where
  lkey : UInt32
  rkey : UInt32
  deriving DecidableEq, Repr

-- A region that still owns its registration; `ptr` is a `void *`.
structure RdmaMemoryRegion where
  mr : IbvMr
  ptr : UInt64
  size : UInt64
  deriving DecidableEq, Repr

namespace RdmaMemoryRegion

def getLkey (region : RdmaMemoryRegion) : UInt32 := region.mr.lkey
def getRkey (region : RdmaMemoryRegion) : UInt32 := region.mr.rkey
def getPtr (region : RdmaMemoryRegion) : UInt64 := region.ptr
def getSize (region : RdmaMemoryRegion) : UInt64 := region.size

end RdmaMemoryRegion

def addVoidPtr (ptr size : UInt64) : UInt64 := ptr + size

structure IbvSge where
  addr : UInt64 := 0
  length : UInt32 := 0
  lkey : UInt32 := 0
  deriving DecidableEq, Repr

structure RdmaMemorySlice where
  region : RdmaMemoryRegion
  ptr : UInt64
  size : UInt64
  deriving DecidableEq, Repr

namespace RdmaMemorySlice

-- `rdma_memory_slice(region, offset, size)`
def ofRegion (region : RdmaMemoryRegion) (offset size : UInt64) : RdmaMemorySlice :=
  { region, ptr := addVoidPtr region.getPtr offset, size }

-- `rdma_memory_slice(region)`, the implicit conversion
def whole (region : RdmaMemoryRegion) : RdmaMemorySlice :=
  ofRegion region 0 region.getSize

def getPtr (this : RdmaMemorySlice) : UInt64 := this.ptr
def getSize (this : RdmaMemorySlice) : UInt64 := this.size
def getLkey (this : RdmaMemorySlice) : UInt32 := this.region.getLkey
def getRkey (this : RdmaMemorySlice) : UInt32 := this.region.getRkey

-- `slice(offset, size)`
def slice (this : RdmaMemorySlice) (offset size : UInt64) : Except Failure RdmaMemorySlice :=
  if offset + size > this.size then
    .error (.panic "desired memory slice [{}, {}) is larger than the parent slice (size {})"
      [offset.toNat, (offset + size).toNat, this.size.toNat])
  else
    -- The offset is handed on as one relative to the region.
    .ok (ofRegion this.region offset size)

-- `slice(offset)`
def sliceFrom (this : RdmaMemorySlice) (offset : UInt64) : Except Failure RdmaMemorySlice :=
  this.slice offset (this.size - offset)

def toSge (this : RdmaMemorySlice) : Except Failure IbvSge :=
  if this.size.toNat > 2 ^ 32 - 1 then
    .error (.panic "memory slice size {} is larger than the maximum allowed size {}"
      [this.size.toNat, 2 ^ 32 - 1])
  else
    .ok { addr := this.ptr, length := this.size.toUInt32, lkey := this.getLkey }

def isAligned (this : RdmaMemorySlice) (alignment : UInt64 := 8) : Bool :=
  this.ptr % alignment == 0

end RdmaMemorySlice

namespace RdmaMemoryRegion

-- `slice(offset, size)`
def slice (this : RdmaMemoryRegion) (offset size : UInt64) : Except Failure RdmaMemorySlice :=
  if offset + size > this.size then
    .error (.panic "desired memory slice [{}, {}) is larger than the region (size {})"
      [offset.toNat, (offset + size).toNat, this.size.toNat])
  else
    .ok (.ofRegion this offset size)

-- `slice(offset)`
def sliceFrom (this : RdmaMemoryRegion) (offset : UInt64) : Except Failure RdmaMemorySlice :=
  this.slice offset (this.size - offset)

end RdmaMemoryRegion

structure RdmaRemoteMemorySlice where
  addr : UInt64
  size : UInt64
  rkey : UInt64
  deriving DecidableEq, Repr

namespace RdmaRemoteMemorySlice

-- The constructor takes a 32-bit key and stores it in 64 bits.
def ofKey (addr size : UInt64) (rkey : UInt32) : RdmaRemoteMemorySlice :=
  { addr, size, rkey := rkey.toUInt64 }

def getAddr (this : RdmaRemoteMemorySlice) : UInt64 := this.addr
def getSize (this : RdmaRemoteMemorySlice) : UInt64 := this.size
def getRkey (this : RdmaRemoteMemorySlice) : UInt32 := this.rkey.toUInt32

end RdmaRemoteMemorySlice

end Rdmalib2
