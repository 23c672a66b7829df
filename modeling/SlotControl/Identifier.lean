import SlotControl.Numeral

/-!
The names of workers, jobs, owners, resources and allocations, and the places of slots on workers,
with their order and their text.
-/

namespace SlotControl

/-- A worker that offers slots. -/
structure WorkerId where
  number : UInt32
  deriving DecidableEq, Hashable, Inhabited, Repr

/-- A job that occupies slots. -/
structure JobId where
  number : UInt32
  deriving DecidableEq, Hashable, Inhabited, Repr

/-- The slot manager that sends requests. -/
structure OwnerId where
  number : UInt32
  deriving DecidableEq, Hashable, Inhabited, Repr

/-- A dimension of resources. -/
structure ResourceId where
  number : UInt32
  deriving DecidableEq, Hashable, Inhabited, Repr

/-- One attempt to allocate a slot. Every attempt has an id of its own, so that a late answer is
    never taken for the answer to another attempt. -/
structure AllocationId where
  number : BitVec 128
  deriving DecidableEq, Hashable, Inhabited, Repr

namespace WorkerId

instance : Ord WorkerId := ⟨compareOn number⟩
instance : Std.TransOrd WorkerId := inferInstanceAs (Std.TransCmp (compareOn number))
instance : Std.LawfulEqOrd WorkerId where
  eq_of_compare {a b} equal := by
    cases a; cases b
    exact congrArg _ (Std.compare_eq_iff_eq.1 equal)

/-- The id in decimal. -/
def text (id : WorkerId) : String := Numeral.text id.number.toNat

/-- Reads an id in decimal. -/
def ofText (s : String) : Except Numeral.Fault WorkerId :=
  (Numeral.readText Numeral.bound32 s).map fun n => ⟨n.toUInt32⟩

end WorkerId

namespace JobId

instance : Ord JobId := ⟨compareOn number⟩
instance : Std.TransOrd JobId := inferInstanceAs (Std.TransCmp (compareOn number))
instance : Std.LawfulEqOrd JobId where
  eq_of_compare {a b} equal := by
    cases a; cases b
    exact congrArg _ (Std.compare_eq_iff_eq.1 equal)

/-- The id in decimal. -/
def text (id : JobId) : String := Numeral.text id.number.toNat

/-- Reads an id in decimal. -/
def ofText (s : String) : Except Numeral.Fault JobId :=
  (Numeral.readText Numeral.bound32 s).map fun n => ⟨n.toUInt32⟩

end JobId

namespace OwnerId

/-- The id in decimal. -/
def text (id : OwnerId) : String := Numeral.text id.number.toNat

/-- Reads an id in decimal. -/
def ofText (s : String) : Except Numeral.Fault OwnerId :=
  (Numeral.readText Numeral.bound32 s).map fun n => ⟨n.toUInt32⟩

end OwnerId

namespace ResourceId

/-- The id in decimal. -/
def text (id : ResourceId) : String := Numeral.text id.number.toNat

/-- Reads an id in decimal. -/
def ofText (s : String) : Except Numeral.Fault ResourceId :=
  (Numeral.readText Numeral.bound32 s).map fun n => ⟨n.toUInt32⟩

end ResourceId

namespace AllocationId

instance : Ord AllocationId := ⟨compareOn number⟩
instance : Std.TransOrd AllocationId := inferInstanceAs (Std.TransCmp (compareOn number))
instance : Std.LawfulEqOrd AllocationId where
  eq_of_compare {a b} equal := by
    cases a; cases b
    exact congrArg _ (Std.compare_eq_iff_eq.1 equal)

/-- The id of a number, modulo its 128 bits. -/
def ofNat (n : Nat) : AllocationId := ⟨BitVec.ofNat 128 n⟩

/-- The id as 32 hexadecimal digits. -/
def text (id : AllocationId) : String := String.ofList (Numeral.padded 16 32 id.number.toNat)

/-- Reads an id in hexadecimal, of any number of digits. -/
def ofText (s : String) : Except Numeral.Fault AllocationId :=
  (Numeral.read 16 Numeral.bound128 s.toList).map ofNat

end AllocationId

/-- The place of a slot: a worker and the index that the worker has chosen for it. -/
structure SlotId where
  worker : WorkerId
  index : UInt32
  deriving DecidableEq, Hashable, Inhabited, Repr

namespace SlotId

/-- The index of a slot that is not bound to a place of its worker yet. -/
def dynamicIndex : UInt32 := 0xffffffff

/-- Some slot of the worker, not bound to a place yet. -/
def dynamic (worker : WorkerId) : SlotId := ⟨worker, dynamicIndex⟩

/-- The slot is not bound to a place yet. -/
def isDynamic (id : SlotId) : Bool := id.index == dynamicIndex

instance : Ord SlotId := ⟨compareLex (compareOn worker) (compareOn index)⟩

/-- The worker and the index, joined by an at sign. -/
def text (id : SlotId) : String :=
  id.worker.text ++ "@" ++ if id.isDynamic then "dynamic" else Numeral.text id.index.toNat

end SlotId

end SlotControl
