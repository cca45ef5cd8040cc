import Asapo.Common.Networking
import Asapo.Transition

namespace Asapo.Receiver

/-- The record behind a `CacheMeta*`. The pointer itself is kept as `ptr`, and an
address is kept as its offset from the start of the cache. -/
structure CacheMeta where
  ptr : ℕ
  id : ℕ
  addr : ℕ
  size : ℕ
  lock : ℕ
  deriving DecidableEq, Repr

structure DataCache where
  cacheSize : ℕ
  keepUnlocked : ℕ
  counter : ℕ
  curPointer : ℕ
  metas : List CacheMeta
  nextPtr : ℕ
  deriving DecidableEq, Repr

namespace DataCache

/-- An array new-expression throws for more bytes than the largest object size. -/
def maxArraySize : ℕ := 2 ^ 63 - 1

/-- The constructor exits the program when the array cannot be allocated. The value
`keepUnlocked` stands for the product of the cache size and the ratio. -/
def create (cacheSize keepUnlocked rand : ℕ) : Option DataCache :=
  if cacheSize ≤ maxArraySize then
    some ⟨cacheSize, keepUnlocked, rand % 100 + 1, 0, [], 1⟩
  else none

def checkAllocationSize (c : DataCache) (size : ℕ) : Bool := size ≤ c.cacheSize

def intersects (left1 right1 left2 right2 : ℕ) : Bool :=
  (left1 ≥ left2 && left1 < right2) || (right1 ≤ right2 && right1 > left2)

def slotIntersects (left right : ℕ) (m : CacheMeta) : Bool :=
  intersects m.addr (Word.add m.addr m.size) left right

/-- The first loop of `CleanOldSlots`, with `del` for `last_del + 1`. After a restart
from 0 it does not break until an intersecting slot was found. -/
def lastDel (left right : ℕ) : ℕ → Bool → ℕ → List CacheMeta → ℕ
  | _, _, del, [] => del
  | i, was, del, m :: ms =>
    if slotIntersects left right m then lastDel left right (i + 1) true (i + 1) ms
    else if left > 0 || was then del
    else lastDel left right (i + 1) was del ms

def cleanOldSlots (c : DataCache) (size : ℕ) : DataCache × Bool :=
  let del := lastDel (Word.sub c.curPointer size) c.curPointer 0 false 0 c.metas
  if (c.metas.take del).any (fun m => m.lock > 0) then (c, false)
  else ({ c with metas := c.metas.drop del }, true)

def allocateSlot (c : DataCache) (size : ℕ) : DataCache × Option ℕ :=
  let start := if Word.add c.curPointer size > c.cacheSize then 0 else c.curPointer
  let cleaned := cleanOldSlots { c with curPointer := Word.add start size } size
  if cleaned.2 then (cleaned.1, some start)
  else ({ cleaned.1 with curPointer := c.curPointer }, none)

def getNextId (c : DataCache) (timeMillis : ℕ) : DataCache × ℕ :=
  let counter := (c.counter + 1) % 2 ^ 32
  ({ c with counter := counter }, (timeMillis <<< 32 ||| counter) % 2 ^ 64)

def getFreeSlotAndLock (c : DataCache) (size timeMillis : ℕ) : DataCache × Option CacheMeta :=
  if c.checkAllocationSize size then
    match c.allocateSlot size with
    | (c', none) => (c', none)
    | (c', some addr) =>
      let (c'', id) := c'.getNextId timeMillis
      let slot : CacheMeta := ⟨c''.nextPtr, id, addr, size, 1⟩
      ({ c'' with metas := c''.metas ++ [slot], nextPtr := c''.nextPtr + 1 }, some slot)
  else (c, none)

def slotTooCloseToCurrentPointer (c : DataCache) (m : CacheMeta) : Bool :=
  let dist := if m.addr > c.curPointer then Word.sub m.addr c.curPointer
    else Word.add (Word.sub c.cacheSize c.curPointer) m.addr
  dist < c.keepUnlocked

/-- The search loop of `GetSlotToReadAndLock`: the first slot with the id decides. -/
def lockForRead (c : DataCache) (id dataSize : ℕ) :
    List CacheMeta → List CacheMeta × Option CacheMeta
  | [] => ([], none)
  | m :: ms =>
    if m.id = id then
      if dataSize ≠ m.size ∨ c.slotTooCloseToCurrentPointer m then (m :: ms, none)
      else ({ m with lock := m.lock + 1 } :: ms, some { m with lock := m.lock + 1 })
    else
      let (ms', found) := lockForRead c id dataSize ms
      (m :: ms', found)

def getSlotToReadAndLock (c : DataCache) (id dataSize : ℕ) : DataCache × Option CacheMeta :=
  let (ms, found) := c.lockForRead id dataSize c.metas
  ({ c with metas := ms }, found)

def releaseSlot (ptr : ℕ) (m : CacheMeta) : CacheMeta :=
  if m.ptr = ptr then { m with lock := m.lock - 1 } else m

def unlockSlot (c : DataCache) (ptr : ℕ) : DataCache :=
  { c with metas := c.metas.map (releaseSlot ptr) }

end DataCache

inductive CacheCall where
  | getFreeSlotAndLock (size timeMillis : ℕ)
  | getSlotToReadAndLock (id dataSize : ℕ)
  | unlockSlot (ptr : ℕ)
  deriving DecidableEq, Repr

/-- A cache together with the pointers that its callers hold a lock for. -/
structure SharedCache where
  cache : DataCache
  holders : List ℕ
  deriving DecidableEq, Repr

namespace SharedCache

def hold (s : SharedCache) (r : DataCache × Option CacheMeta) : SharedCache :=
  ⟨r.1, (r.2.map (fun m => m.ptr)).toList ++ s.holders⟩

def step (s : SharedCache) : CacheCall → Option SharedCache
  | .getFreeSlotAndLock size timeMillis => some (s.hold (s.cache.getFreeSlotAndLock size timeMillis))
  | .getSlotToReadAndLock id dataSize => some (s.hold (s.cache.getSlotToReadAndLock id dataSize))
  | .unlockSlot ptr =>
    if ptr ∈ s.holders then some ⟨s.cache.unlockSlot ptr, s.holders.erase ptr⟩ else none

end SharedCache

end Asapo.Receiver
