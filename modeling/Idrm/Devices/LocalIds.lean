import Idrm.Devices.ClientManager

/-!
# Local device ids

An alias becomes a device id behind the agent id and an underscore, and `check_local_device_id` goes
back from the last underscore of an id. It finds the alias again unless that has an underscore
itself; and as it compares only as much of the agent id as the device id has before that
underscore, it takes ids of which that is merely the beginning.
-/

namespace Idrm.Devices.Directory

open Idrm.Lib List

/-- The character `_`. -/
def underscore : UInt8 := 0x5F

/-- The id is the agent id, an underscore and something. -/
def Composed (agent deviceId : CString) : Prop :=
  ∃ aliasName : CString, deviceId.bytes = agent.bytes ++ [underscore] ++ aliasName.bytes

/-- The composed id and its NUL fit the buffer of 100 bytes. -/
def FitsLocalId (agent aliasName : CString) : Prop :=
  agent.bytes.length + 1 + aliasName.bytes.length < 100

/-- What stands before the last underscore of the id begins the agent id and is neither empty nor
the whole of it. -/
def CutsAgentId (agent deviceId : CString) : Prop :=
  ∃ front back, deviceId.bytes = front ++ [underscore] ++ back ∧ underscore ∉ back ∧ front ≠ [] ∧
    front <+: agent.bytes ∧ front ≠ agent.bytes

section LastUnderscore

variable {agent deviceId aliasName : CString} {front back : List UInt8}

/-- An id with an underscore has a last one. -/
theorem exists_lastUnderscore {bytes : List UInt8} (member : underscore ∈ bytes) :
    ∃ front back, bytes = front ++ [underscore] ++ back ∧ underscore ∉ back := by
  obtain ⟨back, front, reversed, fresh⟩ := eq_append_cons_of_mem (mem_reverse.mpr member)
  refine ⟨front.reverse, back.reverse, ?_, fun inside => fresh (mem_reverse.mp inside)⟩
  rw [← reverse_reverse bytes, reversed]
  simp

theorem rtakeWhile_lastUnderscore (fresh : underscore ∉ back) :
    (front ++ [underscore] ++ back).rtakeWhile (· ≠ underscore) = back := by
  have kept : ∀ byte ∈ back.reverse, decide (byte ≠ underscore) = true := by
    intro byte member
    have other : byte ≠ underscore := by
      rintro rfl
      exact fresh (mem_reverse.mp member)
    simpa using other
  have reversed :
    (front ++ [underscore] ++ back).reverse = back.reverse ++ underscore :: front.reverse := by simp
  rw [List.rtakeWhile, reversed, takeWhile_append_of_pos kept, takeWhile_cons_of_neg (by simp),
    append_nil, reverse_reverse]

/-- The check, by the parts around the last underscore. -/
theorem checkLocalDeviceId_parts (parts : deviceId.bytes = front ++ [underscore] ++ back)
    (fresh : underscore ∉ back) : checkLocalDeviceId (some agent) deviceId = if front ≠ [] ∧
    front <+: agent.bytes then some (.ofBytes back) else none := by
  have behind : deviceId.bytes.rtakeWhile (· ≠ 0x5F) = back := by
    rw [parts]
    exact rtakeWhile_lastUnderscore fresh
  have before : deviceId.bytes.take (deviceId.bytes.length - back.length - 1) = front := by
    have length : deviceId.bytes.length - back.length - 1 = front.length := by
      rw [parts, length_append, length_append, length_singleton]
      omega
    rw [length, parts, append_assoc, take_left]
  have member : (0x5F : UInt8) ∈ deviceId.bytes := by
    rw [parts]
    simp [underscore]
  simp only [checkLocalDeviceId, behind, before, member, true_and]

/-- Without an underscore nothing is found. -/
theorem checkLocalDeviceId_missing (missing : underscore ∉ deviceId.bytes) :
    checkLocalDeviceId (some agent) deviceId = none := by
  simp only [checkLocalDeviceId]
  exact if_neg fun found => missing found.1

/-! ## The way there and back -/

theorem loadLocalDeviceId_bytes (fits : FitsLocalId agent aliasName) :
    (loadLocalDeviceId (some agent) aliasName).bytes = agent.bytes ++ [underscore] ++
      aliasName.bytes := by
  have whole : (agent.bytes ++ [0x5F] ++ aliasName.bytes).length ≤ 99 := by
    unfold FitsLocalId at fits
    rw [length_append, length_append, length_singleton]
    omega
  have free : (0 : UInt8) ∉ agent.bytes ++ [0x5F] ++ aliasName.bytes := by
    simp [agent.nulFree, aliasName.nulFree]
  rw [loadLocalDeviceId, take_of_length_le whole, CString.ofBytes_nulFree free]
  rfl

/-- An alias comes back exactly where it has no underscore and the agent id is not empty. -/
theorem checkLocalDeviceId_load_iff (fits : FitsLocalId agent aliasName) :
    checkLocalDeviceId (some agent) (loadLocalDeviceId (some agent) aliasName) = some aliasName ↔
      underscore ∉ aliasName.bytes ∧ agent.bytes ≠ [] := by
  have composed := loadLocalDeviceId_bytes fits
  by_cases member : underscore ∈ aliasName.bytes
  · -- What is before the last underscore is longer than the agent id.
    refine iff_of_false ?_ (fun apart => apart.1 member)
    obtain ⟨front, back, parts, fresh⟩ := exists_lastUnderscore member
    have longer : (loadLocalDeviceId (some agent) aliasName).bytes =
        (agent.bytes ++ [underscore] ++ front) ++ [underscore] ++ back := by
      rw [composed, parts]
      simp only [append_assoc]
    rw [checkLocalDeviceId_parts longer fresh, if_neg]
    · exact Option.some_ne_none _ ∘ Eq.symm
    · rintro ⟨-, inside⟩
      have lengths := inside.length_le
      simp only [length_append, length_singleton] at lengths
      omega
  · rw [checkLocalDeviceId_parts composed member, CString.ofBytes_nulFree aliasName.nulFree]
    by_cases empty : agent.bytes = []
    · rw [if_neg fun named => named.1 empty]
      exact iff_of_false (Option.some_ne_none _ ∘ Eq.symm) (fun apart => apart.2 empty)
    · rw [if_pos ⟨empty, prefix_rfl⟩]
      exact iff_of_true rfl ⟨member, empty⟩

/-- An id that is taken is composed exactly where it does not cut the agent id. -/
theorem composed_of_checkLocalDeviceId_iff :
    ((∃ found, checkLocalDeviceId (some agent) deviceId = some found) → Composed agent deviceId) ↔
    ¬CutsAgentId agent deviceId := by
  constructor
  · rintro composed ⟨front, back, parts, fresh, named, begins, cut⟩
    have taken : checkLocalDeviceId (some agent) deviceId = _ :=
      checkLocalDeviceId_parts parts fresh
    rw [if_pos ⟨named, begins⟩] at taken
    obtain ⟨aliasName, whole⟩ := composed ⟨_, taken⟩
    -- The underscore behind the agent id would come after the last one.
    obtain ⟨missed, agentId⟩ := begins
    rw [parts, ← agentId, append_assoc, append_assoc, append_assoc] at whole
    have behind := append_cancel_left whole
    cases missed with
    | nil => exact cut (by rw [← agentId, append_nil])
    | cons byte missed =>
      obtain ⟨-, later⟩ := List.cons.inj behind
      apply fresh
      rw [show back = missed ++ ([underscore] ++ aliasName.bytes) from later]
      simp
  · rintro whole ⟨found, taken⟩
    by_cases member : underscore ∈ deviceId.bytes
    · obtain ⟨front, back, parts, fresh⟩ := exists_lastUnderscore member
      rw [checkLocalDeviceId_parts parts fresh] at taken
      split at taken
      · rename_i begins
        have same : front = agent.bytes := by
          by_contra cut
          exact whole ⟨front, back, parts, fresh, begins.1, begins.2, cut⟩
        refine ⟨⟨back, fun nul => deviceId.nulFree ?_⟩, by rw [parts, same]⟩
        rw [parts]
        exact mem_append_right _ nul
      · cases taken
    · rw [checkLocalDeviceId_missing member] at taken
      cases taken

end LastUnderscore

/-- For every agent id: an alias whose id fits comes back exactly where it has no underscore and the
agent id is not empty; and an id is taken only if it is composed, exactly where it does not
cut the agent id. -/
theorem localDeviceIds_iff (agent : CString) : (∀ aliasName, FitsLocalId agent aliasName →
      (checkLocalDeviceId (some agent) (loadLocalDeviceId (some agent) aliasName) = some aliasName ↔
      underscore ∉ aliasName.bytes ∧ agent.bytes ≠ [])) ∧ ∀ deviceId,
    ((∃ found, checkLocalDeviceId (some agent) deviceId = some found) → Composed agent deviceId) ↔
    ¬CutsAgentId agent deviceId :=
  ⟨fun _ fits => checkLocalDeviceId_load_iff fits, fun _ => composed_of_checkLocalDeviceId_iff⟩

/-- The agent `"gw"`. -/
def agentGw : CString := .ofBytes [0x67, 0x77]

/-- The alias `"a_b"` does not come back from its id, and the id `"g_x"` is taken. -/
theorem localDeviceIds_gw_fails : FitsLocalId agentGw (.ofBytes [0x61, 0x5F, 0x62]) ∧
    checkLocalDeviceId
      (some agentGw) (loadLocalDeviceId (some agentGw) (.ofBytes [0x61, 0x5F, 0x62])) = none ∧
    checkLocalDeviceId (some agentGw) (.ofBytes [0x67, 0x5F, 0x78]) = some (.ofBytes [0x78]) ∧
    ¬Composed agentGw (.ofBytes [0x67, 0x5F, 0x78]) := by
  refine ⟨(by decide : 2 + 1 + 3 < 100), by decide, by decide, ?_⟩
  rintro ⟨aliasName, whole⟩
  have second : (some 0x5F : Option UInt8) = some 0x77 := congrArg (·[1]?) whole
  exact absurd second (by decide)

end Idrm.Devices.Directory
