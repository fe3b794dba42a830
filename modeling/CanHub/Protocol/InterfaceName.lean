/-
# Namespaced interface names

People call an interface `agent/interface`. `InterfaceName_Split` takes such a name apart
at its first separator; `InterfaceName_Find` looks for the entry of a LIST whose two names,
put together, are the name. Both give back what was put together if the agent's name has no
separator in it (`split_namespaced`, `namesEntry_iff`).
-/
import CanHub.Protocol.Register

namespace CanHub
namespace InterfaceName

/-- `INTERFACE_NAME_SEPARATOR`, a slash. -/
def separator : UInt8 := 0x2F

/-- How an interface is shown. -/
def namespaced (agentName interfaceName : Text) : Text := agentName ++ separator :: interfaceName

/-- `InterfaceName_Split`. -/
def split (name : Text) : Option (Text × Text) :=
  let agentName := name.takeWhile (· ≠ separator)
  match name.dropWhile (· ≠ separator) with
  | [] => none
  | _ :: interfaceName =>
    if agentName.length = 0 ∨ registerAgentNameSize ≤ agentName.length then none
    else if interfaceName.length = 0 ∨ registerInterfaceNameSize ≤ interfaceName.length then none
    else some (agentName, interfaceName)

/-- `namesEntry`, of the names of an entry. -/
def namesEntry (name agentName interfaceName : Text) : Bool :=
  if !agentName.isPrefixOf name then false
  else if name.getD agentName.length 0 ≠ separator then false
  else name.drop (agentName.length + 1) = interfaceName

/-- An entry is found by the name it is shown under and by no other. -/
theorem namesEntry_iff {name agentName interfaceName : Text} :
    namesEntry name agentName interfaceName ↔ name = namespaced agentName interfaceName := by
  unfold namesEntry namespaced
  by_cases hprefix : agentName <+: name
  · obtain ⟨rest, rfl⟩ := hprefix
    have hhead : (agentName ++ rest).getD agentName.length 0 = rest.getD 0 0 := by
      rw [List.getD_append_right _ _ _ _ (le_refl _), Nat.sub_self]
    have htail : (agentName ++ rest).drop (agentName.length + 1) = rest.tail := by
      rw [List.drop_append]
      simp
    rw [if_neg (by simp), hhead, htail, List.append_right_inj]
    cases rest with
    | nil => simp [separator]
    | cons c rest =>
      by_cases hc : c = separator
      · simp [hc]
      · simp [hc]
  · have hno : (!agentName.isPrefixOf name) = true := by
      rw [Bool.not_eq_true', ← Bool.not_eq_true, List.isPrefixOf_iff_prefix]
      exact hprefix
    rw [if_pos hno]
    simp only [Bool.false_eq_true, false_iff]
    rintro rfl
    exact hprefix (List.prefix_append _ _)

theorem takeWhile_namespaced {agentName : Text} (h : separator ∉ agentName) (interfaceName : Text) :
    (namespaced agentName interfaceName).takeWhile (· ≠ separator) = agentName
      ∧ (namespaced agentName interfaceName).dropWhile (· ≠ separator) = separator :: interfaceName := by
  unfold namespaced
  have hall : ∀ c ∈ agentName, decide (c ≠ separator) = true := by
    intro c hc
    simp only [ne_eq, decide_not, Bool.not_eq_eq_eq_not, Bool.not_true, decide_eq_false_iff_not]
    rintro rfl
    exact h hc
  rw [List.takeWhile_append_of_pos hall, List.dropWhile_append_of_pos hall]
  simp

/-- A name without a separator in the agent's part comes apart where it was put together. -/
theorem split_namespaced {agentName interfaceName : Text} (h : separator ∉ agentName) (hagent : agentName ≠ [])
    (hagentSize : agentName.length < registerAgentNameSize) (hinterface : interfaceName ≠ [])
    (hinterfaceSize : interfaceName.length < registerInterfaceNameSize) :
    split (namespaced agentName interfaceName) = some (agentName, interfaceName) := by
  obtain ⟨htake, hdrop⟩ := takeWhile_namespaced h interfaceName
  unfold split
  rw [htake, hdrop]
  dsimp only
  rw [if_neg, if_neg]
  · simp only [List.length_eq_zero_iff, not_or]
    exact ⟨hinterface, by omega⟩
  · simp only [List.length_eq_zero_iff, not_or]
    exact ⟨hagent, by omega⟩

/-- Two such names are the same only if their parts are. -/
theorem namespaced_inj {agentName agentName' interfaceName interfaceName' : Text} (h : separator ∉ agentName)
    (h' : separator ∉ agentName') (he : namespaced agentName interfaceName = namespaced agentName' interfaceName') :
    agentName = agentName' ∧ interfaceName = interfaceName' := by
  obtain ⟨htake, hdrop⟩ := takeWhile_namespaced h interfaceName
  obtain ⟨htake', hdrop'⟩ := takeWhile_namespaced h' interfaceName'
  rw [he] at htake hdrop
  exact ⟨htake.symm.trans htake', List.tail_eq_of_cons_eq (hdrop.symm.trans hdrop')⟩

end InterfaceName
end CanHub
