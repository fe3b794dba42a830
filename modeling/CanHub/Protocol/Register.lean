/-
# REGISTER on the wire

`RegisterMessage_Decode` reads the agent's name and up to sixteen interface names from
fields of a fixed size. A field is a C string: it ends at its first zero, at the latest at
its last byte. Nothing is said about the other bytes of a name, and nothing compares the
names of one message with each other; `decode_texts` is all the decoder promises.
-/
import CanHub.Protocol.Control

namespace CanHub

@[simp] abbrev registerBodySize : ℕ := 388
@[simp] abbrev registerAgentNameSize : ℕ := 128
@[simp] abbrev registerInterfaceNameSize : ℕ := 16
@[simp] abbrev registerInterfaceCountOffset : ℕ := 128
@[simp] abbrev registerFlagsOffset : ℕ := 129
@[simp] abbrev registerFdInterfacesOffset : ℕ := 130
@[simp] abbrev registerInterfaceNamesOffset : ℕ := 132

def registerFlagFdReported : UInt8 := 1

/-- The C string in a field of the given size. -/
def Wire.textAt (payload : List UInt8) (offset size : ℕ) : Text :=
  ((payload.drop offset).take (size - 1)).takeWhile (· ≠ 0)

namespace RegisterMessage

/-- The names of the interfaces. -/
def decodeNames (payload : List UInt8) (count : ℕ) : List Text :=
  (List.range count).map fun i =>
    Wire.textAt payload (registerInterfaceNamesOffset + i * registerInterfaceNameSize) registerInterfaceNameSize

/-- `areInterfaceNamesValid`. -/
def areInterfaceNamesValid (names : List Text) : Bool := names.all (· ≠ [])

/-- `RegisterMessage_Decode`. -/
def decode (payload : List UInt8) : Option RegisterMessage :=
  let count := (Wire.byteAt payload registerInterfaceCountOffset).toNat
  let fdReported : Bool := Wire.byteAt payload registerFlagsOffset &&& registerFlagFdReported ≠ 0
  if payload.length < registerBodySize then none
  else if hcount : registerInterfacesMax < count then none
  else if hnames : areInterfaceNamesValid (decodeNames payload count) then
    some
      { agentName := Wire.textAt payload 0 registerAgentNameSize
        interfaceNames := decodeNames payload count
        fdReported
        fdInterfaces := if fdReported then Wire.readU16 (payload.drop registerFdInterfacesOffset) else 0
        count_le := by simpa [decodeNames] using hcount
        named := by simpa [areInterfaceNamesValid] using hnames }
  else none

/-- A text that a field of the size can hold. -/
def FitsField (size : ℕ) (t : Text) : Prop := t.length < size ∧ 0 ∉ t

theorem textAt_fits (payload : List UInt8) (offset : ℕ) {size : ℕ} (h : 0 < size) :
    FitsField size (Wire.textAt payload offset size) := by
  unfold Wire.textAt
  constructor
  · calc (((payload.drop offset).take (size - 1)).takeWhile (· ≠ 0)).length
        ≤ ((payload.drop offset).take (size - 1)).length := (List.takeWhile_prefix _).length_le
      _ ≤ size - 1 := List.length_take_le _ _
      _ < size := by omega
  · intro hmem
    have hall := List.all_takeWhile (p := (· ≠ 0)) (l := (payload.drop offset).take (size - 1))
    simpa using List.all_eq_true.mp hall 0 hmem

/-- What the decoder promises of the names. -/
theorem decode_texts {payload : List UInt8} {m : RegisterMessage} (h : decode payload = some m) :
    FitsField registerAgentNameSize m.agentName
      ∧ ∀ name ∈ m.interfaceNames, FitsField registerInterfaceNameSize name := by
  unfold decode at h
  dsimp only at h
  split at h
  · cases h
  split at h
  · cases h
  split at h
  · cases h
    refine ⟨textAt_fits _ _ (by decide), fun name hname => ?_⟩
    obtain ⟨i, _, rfl⟩ := List.mem_map.mp hname
    exact textAt_fits _ _ (by decide)
  · cases h

end RegisterMessage
end CanHub
