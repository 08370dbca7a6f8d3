import Idrm.Devices.ClientManager

/-!
# One device for each name

`FindClient`, `handle_rd_get` and `one_device_delete` take the name of a device and search
the list for it. They mean one object where no two devices have one endpoint name and no
device has the endpoint name of another for an alias.
-/

namespace Idrm.Devices

open Idrm.Lib List

namespace Directory

/-- The list holds one device for each endpoint name, and every function that is given the
name refers to it. -/
structure OneDevicePerName (directory : Directory) : Prop where
  unique : directory.list.Pairwise fun one other => one.epname ≠ other.epname
  found : ∀ client ∈ directory.list, directory.findClient client.epname = some client
  got : ∀ client ∈ directory.list, ∀ agentId withCfg,
    directory.handleRdGet agentId (some (.device client.epname)) withCfg =
      (client.generateRDReport agentId withCfg).toList
  deleted : ∀ client ∈ directory.list,
    (directory.oneDeviceDelete (some client.epname)).list = directory.list.filter (· ≠ client)

/-- A registration names its device, with an alias that is not the name of another one; the
agent's own device is made only while nobody is known by the agent's id. -/
def FreshNames (directory : Directory) : RdEvent → Prop
  | .post agentId _ post _ => ∀ di, postDevice agentId post = some di → di ≠ .empty ∧ ∀ aliasName,
      post.aliasName = some aliasName → ∀ other ∈ directory.list, other.epname = aliasName →
      directory.findClient di = some other
  | .init agentId _ => ∀ agent, agentId = some agent →
      agent ≠ .empty ∧ directory.findClient agent = none
  | .delete _ => True

/-- Neither of two devices is known by the endpoint name of the other. -/
def Apart (one other : Client.Names) : Prop :=
  one.epname ≠ other.epname ∧ one.aliasName ≠ other.epname ∧ other.aliasName ≠ one.epname

/-- Every device has a name of its own. -/
structure Identities (directory : Directory) : Prop where
  numbered : Numbered directory
  named : ∀ entry ∈ directory.names, entry.epname ≠ .empty
  apart : directory.names.Pairwise Apart

section Identities

variable {directory next : Directory} {event : RdEvent} {client : Client}

theorem Apart.symm {one other : Client.Names} (apart : Apart one other) : Apart other one :=
  ⟨apart.1.symm, apart.2.2, apart.2.1⟩

/-- What stands before and after a device is apart from it. -/
theorem Identities.split (identities : Identities directory) (member : client ∈ directory.list) :
    ∃ front back, directory.list = front ++ client :: back ∧
      ∀ other ∈ front ++ back, Apart other.names client.names := by
  obtain ⟨front, back, list⟩ := append_of_mem member
  refine ⟨front, back, list, ?_⟩
  have apart := identities.apart
  rw [names, list, map_append, map_cons, pairwise_append, pairwise_cons] at apart
  obtain ⟨_, ⟨behind, _⟩, before⟩ := apart
  intro other otherMember
  rcases mem_append.mp otherMember with inFront | inBack
  · exact before other.names (mem_map_of_mem inFront) client.names mem_cons_self
  · exact (behind other.names (mem_map_of_mem inBack)).symm

/-- A test that only one entry passes. -/
theorem filter_only {T : Type} {test : T → Bool} {front back : List T} {entry : T}
    (passes : test entry = true) (others : ∀ other ∈ front ++ back, test other = false) :
    (front ++ entry :: back).filter test = [entry] := by
  have none : (front ++ back).filter test = [] :=
    filter_eq_nil_iff.mpr fun other member => by simp [others other member]
  rw [filter_append] at none
  obtain ⟨before, behind⟩ := append_eq_nil_iff.mp none
  rw [filter_append, filter_cons_of_pos passes, before, behind, nil_append]

theorem knownAs_epname (named : client.epname ≠ .empty) : client.knownAs client.epname = true :=
  decide_eq_true (.inl ⟨named, rfl⟩)

theorem knownAs_apart {other : Client} (apart : Apart other.names client.names) :
    other.knownAs client.epname = false := by
  refine decide_eq_false ?_
  rintro (⟨-, same⟩ | ⟨-, same⟩)
  · exact apart.1 same
  · exact apart.2.1 same

theorem queryRD_device (name : CString) (client : Client) :
    client.queryRD (.device name) = decide (client.epname = name ∨ client.aliasName = name) := by
  simp [Client.queryRD, Client.RdQuery.device, Client.agrees]

theorem Identities.findClient (identities : Identities directory)
    (member : client ∈ directory.list) : directory.findClient client.epname = some client := by
  obtain ⟨front, back, list, others⟩ := identities.split member
  refine List.find?_eq_some_iff_append.mpr ⟨knownAs_epname (identities.named _ (mem_names member)),
    front, back, list, ?_⟩
  intro other inFront
  rw [knownAs_apart (others other (mem_append_left _ inFront))]
  rfl

theorem Identities.onePerName (identities : Identities directory) : OneDevicePerName directory := by
  refine ⟨?_, fun client member => identities.findClient member, ?_, ?_⟩
  · exact (pairwise_map.mp identities.apart).imp fun apart => apart.1
  · intro client member agentId withCfg
    obtain ⟨front, back, list, others⟩ := identities.split member
    have only : directory.list.filter
        (fun client' => client'.queryRD (.device client.epname)) = [client] := by
      rw [list]
      refine filter_only ?_ fun other otherMember => ?_
      · rw [queryRD_device]
        exact decide_eq_true (.inl rfl)
      · rw [queryRD_device]
        have apart := others other otherMember
        exact decide_eq_false (not_or.mpr ⟨apart.1, apart.2.1⟩)
    simp only [handleRdGet, Option.all_some, only]
    cases report : client.generateRDReport agentId withCfg with
    | none => simp [report]
    | some report' => simp [report]
  · intro client member
    have found := identities.findClient member
    have deleted :
        directory.oneDeviceDelete (some client.epname) = freeClient client directory := by
      simp only [oneDeviceDelete, Option.bind_some, found]
    rw [deleted, list_freeClient]
    refine filter_congr fun other otherMember => ?_
    refine decide_eq_decide.mpr (not_congr ⟨?_, ?_⟩)
    · exact identities.numbered.sameClient otherMember member
    · rintro rfl
      rfl

/-- A client that is not found is known by no name. -/
theorem findClient_none {name : CString}
    (notEmpty : name ≠ .empty) (missing : directory.findClient name = none) :
    ∀ entry ∈ directory.names, entry.epname ≠ name ∧ entry.aliasName ≠ name := by
  intro entry member
  obtain ⟨other, otherMember, rfl⟩ := mem_map.mp member
  have unknown := List.find?_eq_none.mp missing other otherMember
  refine ⟨?_, ?_⟩
  · rintro rfl
    exact unknown (decide_eq_true (.inl ⟨notEmpty, rfl⟩))
  · rintro rfl
    exact unknown (decide_eq_true (.inr ⟨notEmpty, rfl⟩))

/-- A device comes whose names are new. -/
theorem Identities.cons {epname aliasName : CString} (identities : Identities directory)
    (names : next.names = ⟨directory.newId, epname, aliasName⟩ :: directory.names)
    (newId : next.newId = directory.newId + 1) (notEmpty : epname ≠ .empty)
    (missing : directory.findClient epname = none)
    (free : ∀ entry ∈ directory.names, aliasName ≠ entry.epname) : Identities next := by
  refine ⟨identities.numbered.cons names newId, ?_, ?_⟩
  · rw [names]
    intro entry member
    rcases mem_cons.mp member with rfl | member
    · exact notEmpty
    · exact identities.named entry member
  · rw [names]
    refine .cons (fun entry member => ?_) identities.apart
    obtain ⟨otherName, otherAlias⟩ := findClient_none notEmpty missing entry member
    exact ⟨otherName.symm, free entry member, otherAlias⟩

/-- A device gets an alias that is the name of no other. -/
theorem Identities.rename {id : Nat} {aliasName : CString} (identities : Identities directory)
    (names : next.names = retag id aliasName directory.names) (numbered : Numbered next)
    (free : ∀ entry ∈ directory.names, entry.id ≠ id → aliasName ≠ entry.epname) :
    Identities next := by
  refine ⟨numbered, ?_, ?_⟩
  · rw [names]
    intro entry member
    rcases mem_retag member with ⟨_, _, old, oldMember, _, same⟩ | ⟨_, member⟩
    · rw [← same]
      exact identities.named old oldMember
    · exact identities.named entry member
  · rw [names, retag, pairwise_map]
    refine (identities.apart.and identities.numbered.apart).imp_of_mem ?_
    rintro one other oneMember otherMember ⟨apart, different⟩
    split
    · rename_i target
      rw [if_neg fun same => different (target.trans same.symm)]
      exact ⟨apart.1, free other otherMember fun same => different (target.trans same.symm),
        apart.2.2⟩
    split
    · rename_i distinct target
      exact ⟨apart.1, apart.2.1, free one oneMember distinct⟩
    · exact apart

theorem Identities.step (identities : Identities directory) (fresh : FreshNames directory event)
    (step : DirStep directory event next) : Identities next := by
  have numbered := identities.numbered.step step
  cases step with
  | same names mapAlias newId =>
    refine ⟨numbered, ?_, ?_⟩
    · rw [names]
      exact identities.named
    · rw [names]
      exact identities.apart
  | renames di aliasName client device named found names mapAlias newId =>
    have free : ∀ entry ∈ directory.names, entry.id ≠ client.id → aliasName ≠ entry.epname := by
      intro entry member different same
      obtain ⟨other, otherMember, rfl⟩ := mem_map.mp member
      have target := (fresh di device).2 aliasName named other otherMember same.symm
      rw [found] at target
      exact different (congrArg Client.id (Option.some.inj target)).symm
    exact identities.rename names numbered free
  | @joins agentId file post source _ di device missing names mapAlias newId =>
    obtain ⟨notEmpty, given⟩ := fresh di device
    refine identities.cons names newId notEmpty missing fun entry member same => ?_
    cases named : post.aliasName with
    | none =>
      rw [named] at same
      exact identities.named entry member same.symm
    | some aliasName =>
      rw [named] at same
      obtain ⟨other, otherMember, rfl⟩ := mem_map.mp member
      have target := given aliasName named other otherMember same.symm
      rw [missing] at target
      cases target
  | inits agent names mapAlias newId =>
    obtain ⟨notEmpty, missing⟩ := fresh agent rfl
    exact identities.cons names newId notEmpty missing fun entry member same =>
      identities.named entry member same.symm
  | leaves di client found names mapAlias newId =>
    refine ⟨numbered, ?_, ?_⟩
    · rw [names]
      exact fun entry member => identities.named entry (mem_filter.mp member).1
    · rw [names]
      exact identities.apart.filter _

end Identities

/-- In every run whose events bring fresh names, each name stands for one device. -/
theorem oneDevicePerName_of_freshNames {events : List RdEvent} {final : Directory}
    (runs : RunsUnder perform FreshNames start events final) : OneDevicePerName final := by
  have identities : Identities final := by
    refine runs.keeps (fun identities fresh performed => ?_) ⟨.start, nofun, .nil⟩
    exact identities.step fresh (perform_dirStep identities.numbered performed)
  exact identities.onePerName

/-- The agent id `"g"`. -/
def agentG : CString := .ofBytes [0x67]

/-- The device `"d"` registers with the alias `"l"`. -/
def lightD : RdEvent :=
  .post (some agentG) none ⟨some (.ofBytes [0x64]), some (.ofBytes [0x6C]), none, none, none, -1,
    none, [], none⟩ none

/-- The agent starts and a device registers twice. -/
def registeredTwice : List RdEvent := [.init (some agentG) none, lightD, lightD]

theorem oneDevicePerName_registeredTwice :
    ∃ final, runAll perform registeredTwice start = some final ∧ OneDevicePerName final := by
  refine ⟨_, rfl, @oneDevicePerName_of_freshNames registeredTwice _ ?_⟩
  refine .call ?_ rfl (.call ?_ rfl (.call ?_ rfl (.done _)))
  · rintro agent ⟨⟩
    exact ⟨by decide, rfl⟩
  · rintro di ⟨⟩
    refine ⟨by decide, ?_⟩
    rintro aliasName ⟨⟩
    decide
  · rintro di ⟨⟩
    refine ⟨by decide, ?_⟩
    rintro aliasName ⟨⟩
    decide

/-- The agent starts, and its handshake succeeds. -/
def handshaken : List RdEvent := [.init (some agentG) none, .init (some agentG) none]

/-- The second call of `init_resource_directory` makes a twin of the agent's device. -/
theorem oneDevicePerName_handshaken_fails :
    ∃ final, runAll perform handshaken start = some final ∧ ¬OneDevicePerName final := by
  refine ⟨_, rfl, fun one => ?_⟩
  have apart := rel_of_pairwise_cons one.unique mem_cons_self
  exact apart rfl

end Directory

end Idrm.Devices
