import Idrm.Devices.ClientManager

/-!
# The alias map

The alias of a device is kept twice, in the device and as an entry of `m_map_alias`.
`SetDeviceAlias` writes both for the device it is given, and forgets the entry of its
former alias and the device that had the alias before. The two sides agree as long as no
registration changes an alias or takes one that another device has.
-/

namespace Idrm.Devices

open Idrm.Lib List

namespace Directory

/-- The map and the devices agree. -/
structure AliasesAgree (directory : Directory) : Prop where
  entries : ∀ aliasName id, directory.mapAlias aliasName = some id →
    ∃ client ∈ directory.list, client.id = id ∧ client.aliasName = aliasName
  found : ∀ client ∈ directory.list, client.aliasName ≠ .empty →
    directory.findAliasDevice client.aliasName = some client.id

/-- An alias that comes with a registration is not empty, is not a change for the device,
and belongs to no other device. -/
def KeepsAliases (directory : Directory) : RdEvent → Prop
  | .post agentId _ post _ => ∀ di aliasName, postDevice agentId post = some di →
      post.aliasName = some aliasName →
      aliasName ≠ .empty ∧ (∀ client, directory.findClient di = some client →
      client.aliasName = .empty ∨ client.aliasName = aliasName) ∧
      ∀ other ∈ directory.list, other.aliasName = aliasName → directory.findClient di = some other
  | _ => True

/-- `AliasesAgree` in terms of names. The empty alias has no entry, because `FreeClient`
would not remove it. -/
structure AliasNames (directory : Directory) : Prop where
  numbered : Numbered directory
  noEmpty : directory.mapAlias .empty = none
  entries : ∀ aliasName id, directory.mapAlias aliasName = some id →
    ∃ entry ∈ directory.names, entry.id = id ∧ entry.aliasName = aliasName
  found : ∀ entry ∈ directory.names, entry.aliasName ≠ .empty →
    directory.mapAlias entry.aliasName = some entry.id

section Aliases

variable {directory next : Directory} {event : RdEvent}

theorem AliasNames.start : AliasNames start := ⟨.start, rfl, nofun, nofun⟩

theorem AliasNames.agree (aliases : AliasNames directory) : AliasesAgree directory := by
  refine ⟨?_, ?_⟩
  · intro aliasName id entry
    obtain ⟨listed, member, same, named⟩ := aliases.entries aliasName id entry
    obtain ⟨client, clientMember, rfl⟩ := mem_map.mp member
    exact ⟨client, clientMember, same, named⟩
  · intro client member named
    exact aliases.found client.names (mem_names member) named

/-- A new device without alias. -/
theorem AliasNames.cons {epname : CString} (aliases : AliasNames directory)
    (names : next.names = ⟨directory.newId, epname, .empty⟩ :: directory.names)
    (mapAlias : next.mapAlias = directory.mapAlias) (newId : next.newId = directory.newId + 1) :
    AliasNames next := by
  refine ⟨aliases.numbered.cons names newId, mapAlias ▸ aliases.noEmpty, ?_, ?_⟩
  · intro aliasName id entry
    rw [mapAlias] at entry
    obtain ⟨listed, member, same⟩ := aliases.entries aliasName id entry
    exact ⟨listed, names ▸ mem_cons_of_mem _ member, same⟩
  · intro entry member named
    rw [names] at member
    rw [mapAlias]
    rcases mem_cons.mp member with rfl | member
    · exact absurd rfl named
    · exact aliases.found entry member named

/-- A new device with an alias that nobody has. -/
theorem AliasNames.consNamed {epname aliasName : CString} (aliases : AliasNames directory)
    (names : next.names = ⟨directory.newId, epname, aliasName⟩ :: directory.names)
    (mapAlias : next.mapAlias = Function.update directory.mapAlias aliasName (some directory.newId))
    (newId : next.newId = directory.newId + 1) (notEmpty : aliasName ≠ .empty)
    (free : ∀ entry ∈ directory.names, entry.aliasName ≠ aliasName) : AliasNames next := by
  refine ⟨aliases.numbered.cons names newId, ?_, ?_, ?_⟩
  · rw [mapAlias, Function.update_of_ne notEmpty.symm]
    exact aliases.noEmpty
  · intro other id entry
    rw [mapAlias] at entry
    rw [names]
    by_cases same : other = aliasName
    · subst same
      rw [Function.update_self] at entry
      exact ⟨_, mem_cons_self, Option.some.inj entry, rfl⟩
    · rw [Function.update_of_ne same] at entry
      obtain ⟨listed, member, known⟩ := aliases.entries other id entry
      exact ⟨listed, mem_cons_of_mem _ member, known⟩
  · intro entry member named
    rw [names] at member
    rw [mapAlias]
    rcases mem_cons.mp member with rfl | member
    · exact Function.update_self ..
    · rw [Function.update_of_ne (free entry member)]
      exact aliases.found entry member named

/-- A device gets an alias that no other device has. -/
theorem AliasNames.rename {aliasName : CString}
    {target : Client.Names} (aliases : AliasNames directory) (member : target ∈ directory.names)
    (names : next.names = retag target.id aliasName directory.names)
    (mapAlias : next.mapAlias = Function.update directory.mapAlias aliasName (some target.id))
    (numbered : Numbered next) (notEmpty : aliasName ≠ .empty)
    (unchanged : target.aliasName = .empty ∨ target.aliasName = aliasName)
    (free : ∀ entry ∈ directory.names, entry.aliasName = aliasName → entry = target) :
    AliasNames next := by
  refine ⟨numbered, ?_, ?_, ?_⟩
  · rw [mapAlias, Function.update_of_ne notEmpty.symm]
    exact aliases.noEmpty
  · intro other id entry
    rw [mapAlias] at entry
    rw [names]
    by_cases same : other = aliasName
    · subst same
      rw [Function.update_self] at entry
      refine ⟨{ target with aliasName := other }, mem_map.mpr ⟨target, member, if_pos rfl⟩, ?_, rfl⟩
      exact Option.some.inj entry
    · rw [Function.update_of_ne same] at entry
      obtain ⟨listed, listedMember, rfl, rfl⟩ := aliases.entries other id entry
      refine ⟨listed, mem_map.mpr ⟨listed, listedMember, if_neg fun sameId => ?_⟩, rfl, rfl⟩
      -- The target has no alias or the given one, and there is no entry for the empty alias.
      obtain rfl := aliases.numbered.unique listedMember member sameId
      rcases unchanged with empty | given
      · rw [empty, aliases.noEmpty] at entry
        cases entry
      · exact same given
  · intro entry entryMember named
    rw [names] at entryMember
    rw [mapAlias]
    rcases mem_retag entryMember with ⟨sameId, given, _⟩ | ⟨otherId, entryMember⟩
    · rw [given, sameId]
      exact Function.update_self ..
    · have taken : entry.aliasName ≠ aliasName :=
        fun given => otherId (free entry entryMember given ▸ rfl)
      rw [Function.update_of_ne taken]
      exact aliases.found entry entryMember named

/-- A device leaves, with its alias. -/
theorem AliasNames.remove {target : Client.Names} (aliases : AliasNames directory)
    (member : target ∈ directory.names)
    (names : next.names = directory.names.filter (·.id ≠ target.id))
    (mapAlias : next.mapAlias = if target.aliasName ≠ .empty then
      Function.update directory.mapAlias target.aliasName none else directory.mapAlias)
    (numbered : Numbered next) : AliasNames next := by
  -- Every other entry of the map is as before.
  have others : ∀ {aliasName : CString}, aliasName ≠ target.aliasName →
      next.mapAlias aliasName = directory.mapAlias aliasName := by
    intro aliasName other
    rw [mapAlias]
    split
    · exact Function.update_of_ne other ..
    · rfl
  have cleared : next.mapAlias target.aliasName = none := by
    rw [mapAlias]
    split
    · exact Function.update_self ..
    · rename_i empty
      rw [not_not.mp empty]
      exact aliases.noEmpty
  have noEmpty : next.mapAlias .empty = none := by
    by_cases empty : CString.empty = target.aliasName
    · rw [empty, cleared]
    · rw [others empty, aliases.noEmpty]
  refine ⟨numbered, noEmpty, ?_, ?_⟩
  · intro aliasName id entry
    have other : aliasName ≠ target.aliasName := by
      rintro rfl
      rw [cleared] at entry
      cases entry
    rw [others other] at entry
    obtain ⟨listed, listedMember, rfl, rfl⟩ := aliases.entries aliasName id entry
    refine ⟨listed, names ▸ mem_filter.mpr ⟨listedMember, decide_eq_true fun sameId => ?_⟩,
      rfl, rfl⟩
    exact other (congrArg _ (aliases.numbered.unique listedMember member sameId))
  · intro entry entryMember named
    rw [names] at entryMember
    obtain ⟨entryMember, otherId⟩ := mem_filter.mp entryMember
    have found := aliases.found entry entryMember named
    have other : entry.aliasName ≠ target.aliasName := by
      intro same
      have targetFound := aliases.found target member (same ▸ named)
      rw [← same, found] at targetFound
      exact of_decide_eq_true otherId (Option.some.inj targetFound)
    rw [others other, found]

theorem AliasNames.step (aliases : AliasNames directory) (keeps : KeepsAliases directory event)
    (step : DirStep directory event next) : AliasNames next := by
  have numbered := aliases.numbered.step step
  cases step with
  | same names mapAlias newId =>
    refine ⟨numbered, mapAlias ▸ aliases.noEmpty, ?_, ?_⟩
    · rw [mapAlias, names]
      exact aliases.entries
    · rw [mapAlias, names]
      exact aliases.found
  | renames di aliasName client device named found names mapAlias newId =>
    obtain ⟨notEmpty, unchanged, free⟩ := keeps di aliasName device named
    refine aliases.rename (mem_names (findClient_some found).1) names mapAlias numbered notEmpty
      (unchanged client found) ?_
    intro entry member given
    obtain ⟨other, otherMember, rfl⟩ := mem_map.mp member
    have same := free other otherMember given
    rw [found] at same
    rw [Option.some.inj same]
  | @joins agentId file post source _ di device missing names mapAlias newId =>
    cases named : post.aliasName with
    | none =>
      rw [named] at names mapAlias
      exact aliases.cons names mapAlias newId
    | some aliasName =>
      rw [named] at names mapAlias
      obtain ⟨notEmpty, _, free⟩ := keeps di aliasName device named
      refine aliases.consNamed names mapAlias newId notEmpty ?_
      intro entry member given
      obtain ⟨other, otherMember, rfl⟩ := mem_map.mp member
      have same := free other otherMember given
      rw [missing] at same
      cases same
  | inits agent names mapAlias newId => exact aliases.cons names mapAlias newId
  | leaves di client found names mapAlias newId =>
    exact aliases.remove (mem_names (findClient_some found).1) names mapAlias numbered

end Aliases

/-- In every run whose registrations keep the aliases apart, map and devices agree. -/
theorem aliasesAgree_of_keepsAliases {events : List RdEvent} {final : Directory}
    (runs : RunsUnder perform KeepsAliases start events final) : AliasesAgree final := by
  have aliases : AliasNames final := by
    refine runs.keeps (fun aliases keeps performed => ?_) AliasNames.start
    exact aliases.step keeps (perform_dirStep aliases.numbered performed)
  exact aliases.agree

/-- The registration of a device with an alias and without anything else. -/
def postAs (di aliasName : CString) : RdEvent :=
  .post none none ⟨some di, some aliasName, none, none, none, -1, none, [], none⟩ none

/-- The name `"x"`. -/
def nameX : CString := .ofBytes [0x78]
/-- The name `"y"`. -/
def nameY : CString := .ofBytes [0x79]
/-- The name `"a"`. -/
def nameA : CString := .ofBytes [0x61]
/-- The name `"b"`. -/
def nameB : CString := .ofBytes [0x62]

/-- Two devices come with aliases, and one of them leaves. -/
def twoDevices : List RdEvent := [postAs nameX nameA, postAs nameY nameB, .delete (some nameX)]

theorem aliasesAgree_twoDevices : ∃ final, runAll perform twoDevices start = some final ∧
    AliasesAgree final := by
  refine ⟨_, rfl, @aliasesAgree_of_keepsAliases twoDevices _ ?_⟩
  refine .call ?_ rfl (.call ?_ rfl (.call ?_ rfl (.done _)))
  · rintro di aliasName ⟨⟩ ⟨⟩
    exact ⟨by decide, nofun, nofun⟩
  · rintro di aliasName ⟨⟩ ⟨⟩
    exact ⟨by decide, by decide, by decide⟩
  · trivial

/-- A device changes its alias and leaves. -/
def changedAlias : List RdEvent := [postAs nameX nameA, postAs nameX nameB, .delete (some nameX)]

/-- The entry of the first alias stays behind and points at a device that is gone. -/
theorem aliasesAgree_changedAlias_fails :
    ∃ final, runAll perform changedAlias start = some final ∧ ¬AliasesAgree final := by
  refine ⟨_, rfl, fun agree => ?_⟩
  obtain ⟨client, member, -⟩ := agree.entries nameA 0 (by decide)
  exact not_mem_nil (a := client) member

end Directory

end Idrm.Devices
