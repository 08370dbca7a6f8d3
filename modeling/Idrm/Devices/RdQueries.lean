import Idrm.Devices.Client

/-!
# Queries as conjunctions

`QueryRD` looks for a resource with the type `rt` and for one with a type of `with_rts` in the same
loop, and where `with_rts` is given it only looks for the latter. A query that gives both is no
longer the conjunction of its conditions, except where the other conditions or the resources
leave no difference.
-/

namespace Idrm.Devices

open Idrm.Lib List

namespace Client

/-- Each condition of the query holds by itself. -/
structure Matches (query : RdQuery) (client : Client) : Prop where
  dt : ∀ dt ∈ query.dt, client.deviceType = dt
  di : ∀ di ∈ query.di, client.epname = di ∨ client.aliasName = di
  st : ∀ st ∈ query.st, client.standard = st
  rt : ∀ rt ∈ query.rt, ∃ resource ∈ client.resList, resource.rt = rt
  withRts : ∀ types ∈ query.withRts, types ≠ [] → ∃ resource ∈ client.resList, resource.rt ∈ types
  groups : ∀ groups ∈ query.groups, ∃ group ∈ groups,
    (∃ config ∈ client.config, group ∈ config.groups) ∨
      ∃ resource ∈ client.resList, ∃ config ∈ resource.config, group ∈ config.groups

/-- The query without its two conditions on types. -/
def RdQuery.untyped (query : RdQuery) : RdQuery := { query with rt := none, withRts := none }

/-- Where `rt` and `with_rts` are both given, another condition fails, or the resources leave no
difference: with an empty `with_rts` none has the type `rt`, with another one some has it or none
has a listed type. -/
def TypesApart (query : RdQuery) (client : Client) : Prop :=
  ∀ rt ∈ query.rt, ∀ types ∈ query.withRts, Matches query.untyped client →
    if types = [] then ∀ resource ∈ client.resList, resource.rt ≠ rt
    else (∃ resource ∈ client.resList, resource.rt = rt) ∨ ∀ resource ∈ client.resList,
    resource.rt ∉ types

/-- `wider` keeps some conditions of `query` and has no others. -/
structure RdQuery.Keeps (wider query : RdQuery) : Prop where
  dt : ∀ dt ∈ wider.dt, dt ∈ query.dt
  di : ∀ di ∈ wider.di, di ∈ query.di
  st : ∀ st ∈ wider.st, st ∈ query.st
  rt : ∀ rt ∈ wider.rt, rt ∈ query.rt
  withRts : ∀ types ∈ wider.withRts, types ∈ query.withRts
  groups : ∀ groups ∈ wider.groups, groups ∈ query.groups

section Queries

variable {query wider : RdQuery} {client : Client}

/-! ## The test by its parts -/

theorem agrees_iff {condition : Option CString} {value : CString} : agrees condition value = true ↔
    ∀ wanted ∈ condition, value = wanted := by
  cases condition with
  | none => exact iff_of_true rfl (fun wanted member => by cases member)
  | some wanted => simp [agrees, eq_comm]

theorem inGroup_iff {group : CString} :
    client.inGroup group = true ↔ (∃ config ∈ client.config, group ∈ config.groups) ∨
      ∃ resource ∈ client.resList, ∃ config ∈ resource.config, group ∈ config.groups := by
  simp only [inGroup, Bool.or_eq_true, any_eq_true, Option.any_eq_true,
    decide_eq_true_eq, Option.mem_def]

/-- The conditions apart from the types. -/
theorem matches_untyped_iff : Matches query.untyped client ↔
    (∀ dt ∈ query.dt, client.deviceType = dt) ∧ (∀ di ∈ query.di, client.epname = di ∨
      client.aliasName = di) ∧ (∀ st ∈ query.st, client.standard = st) ∧ ∀ groups ∈ query.groups,
    ∃ group ∈ groups, client.inGroup group = true := by
  simp only [inGroup_iff]
  constructor
  · rintro ⟨dt, di, st, -, -, groups⟩
    exact ⟨dt, di, st, groups⟩
  · rintro ⟨dt, di, st, groups⟩
    exact ⟨dt, di, st, (fun rt member => by cases member),
      (fun types member => by cases member), groups⟩

theorem matches_iff : Matches query client ↔ Matches query.untyped client ∧
    (∀ rt ∈ query.rt, ∃ resource ∈ client.resList, resource.rt = rt) ∧
    ∀ types ∈ query.withRts, types ≠ [] → ∃ resource ∈ client.resList, resource.rt ∈ types := by
  constructor
  · rintro ⟨dt, di, st, rt, withRts, groups⟩
    exact ⟨⟨dt, di, st, (fun rt member => by cases member), (fun types member => by cases member),
      groups⟩, rt, withRts⟩
  · rintro ⟨⟨dt, di, st, -, -, groups⟩, rt, withRts⟩
    exact ⟨dt, di, st, rt, withRts, groups⟩

/-- `QueryRD` tests the other conditions, and the types of the resources where a type is given. -/
theorem queryRD_iff :
    client.queryRD query = true ↔ Matches query.untyped client ∧ (query.rt.isSome = true ∨
      query.withRts.getD [] ≠ [] → ∃ resource ∈ client.resList, hasType query resource = true) := by
  have types : (if query.rt.isSome ∨ (query.withRts.getD []) ≠ [] then
      client.resList.any (hasType query) else true) = true ↔ (query.rt.isSome = true ∨
      query.withRts.getD [] ≠ [] → ∃ resource ∈ client.resList, hasType query resource = true) := by
    by_cases typed : query.rt.isSome = true ∨ query.withRts.getD [] ≠ []
    · rw [if_pos typed, any_eq_true, imp_iff_right typed]
    · rw [if_neg typed]
      exact iff_of_true rfl (fun wanted => absurd wanted typed)
  have device : query.di.all (fun di => client.epname = di ∨ client.aliasName = di) = true ↔
      ∀ di ∈ query.di, client.epname = di ∨ client.aliasName = di := by
    cases query.di <;> simp
  have groups : (query.groups.all fun groups => groups.any fun group => client.inGroup group) =
      true ↔ ∀ groups ∈ query.groups, ∃ group ∈ groups, client.inGroup group = true := by
    cases query.groups <;> simp
  unfold queryRD
  rw [Bool.and_eq_true, Bool.and_eq_true, Bool.and_eq_true, Bool.and_eq_true, agrees_iff,
    agrees_iff, device, types, groups, matches_untyped_iff]
  tauto

/-- Where only one of the two conditions on types is given, the loop tests it. -/
theorem hasType_iff (apart : query.rt = none ∨ query.withRts = none) : (query.rt.isSome = true ∨
      query.withRts.getD [] ≠ [] → ∃ resource ∈ client.resList, hasType query resource = true) ↔
    (∀ rt ∈ query.rt, ∃ resource ∈ client.resList, resource.rt = rt) ∧
    ∀ types ∈ query.withRts, types ≠ [] → ∃ resource ∈ client.resList, resource.rt ∈ types := by
  unfold hasType
  cases types : query.withRts with
  | none =>
    cases query.rt with
    | none => simp
    | some rt => simp [eq_comm]
  | some types =>
    obtain typeless : query.rt = none := apart.resolve_right (by simp [types])
    simp [typeless]

/-- Where both are given, the loop tests the list alone. -/
theorem hasType_both {rt : CString} {types : List CString} (typed : query.rt = some rt)
    (listed : query.withRts = some types) : (query.rt.isSome = true ∨ query.withRts.getD [] ≠ [] →
      ∃ resource ∈ client.resList, hasType query resource = true) ↔
    ∃ resource ∈ client.resList, resource.rt ∈ types := by
  unfold hasType
  simp [typed, listed]

/-! ## The conjunction -/

/-- The test is the conjunction of the conditions exactly where the types are apart. -/
theorem queryRD_matches_iff : (client.queryRD query = true ↔ Matches query client) ↔
    TypesApart query client := by
  rw [queryRD_iff, @matches_iff query]
  unfold TypesApart
  cases typed : query.rt with
  | none =>
    rw [← typed, hasType_iff (.inl typed)]
    exact iff_of_true Iff.rfl (fun rt member => by simp [typed] at member)
  | some rt =>
    cases listed : query.withRts with
    | none =>
      rw [← typed, ← listed, hasType_iff (.inr listed)]
      exact iff_of_true Iff.rfl (fun _ _ types member => by simp [listed] at member)
    | some types =>
      rw [← typed, ← listed, hasType_both typed listed]
      simp only [typed, listed, Option.mem_some_iff, forall_eq']
      by_cases empty : types = []
      · rw [if_pos empty]
        subst empty
        simp only [not_mem_nil, and_false, exists_false, ne_eq, not_true_eq_false, false_implies,
          and_true, false_iff]
        push Not
        exact Iff.rfl
      · rw [if_neg empty]
        simp only [ne_eq, empty, not_false_eq_true, true_implies]
        constructor
        · intro same untyped
          by_cases found : ∃ resource ∈ client.resList, resource.rt ∈ types
          · exact .inl (same.mp ⟨untyped, found⟩).2.1
          · exact .inr fun resource member inside => found ⟨resource, member, inside⟩
        · intro apart
          constructor
          · rintro ⟨untyped, found⟩
            refine ⟨untyped, ?_, found⟩
            rcases apart untyped with some | none
            · exact some
            · obtain ⟨resource, member, inside⟩ := found
              exact absurd inside (none resource member)
          · rintro ⟨untyped, -, found⟩
            exact ⟨untyped, found⟩

/-- The conjunction asks whether resources are there, not where. -/
theorem queryRD_perm {resources : List ResObject} (reordered : client.resList.Perm resources) :
    queryRD query { client with resList := resources } = queryRD query client := by
  have any : ∀ test : ResObject → Bool, resources.any test = client.resList.any test :=
    fun test => reordered.symm.any_eq
  simp only [queryRD, inGroup, any]

/-- What keeps fewer conditions holds wherever more do. -/
theorem Matches.weaken (holds : Matches query client) (keeps : wider.Keeps query) :
    Matches wider client where
  dt := fun dt member => holds.dt dt (keeps.dt dt member)
  di := fun di member => holds.di di (keeps.di di member)
  st := fun st member => holds.st st (keeps.st st member)
  rt := fun rt member => holds.rt rt (keeps.rt rt member)
  withRts := fun types member => holds.withRts types (keeps.withRts types member)
  groups := fun groups member => holds.groups groups (keeps.groups groups member)

/-- For every device and every query: `QueryRD` is the conjunction of the conditions exactly where
the types are apart. The order of the resources never matters, and where two queries are so for a
device, the one with more conditions matches only if the other does. -/
theorem queryRD_conjunction_iff (query : RdQuery) (client : Client) :
    ((client.queryRD query = true ↔ Matches query client) ↔ TypesApart query client) ∧
    (∀ resources, client.resList.Perm resources →
      queryRD query { client with resList := resources } = queryRD query client) ∧
      ∀ wider, RdQuery.Keeps wider query → TypesApart query client → TypesApart wider client →
        client.queryRD query = true → client.queryRD wider = true := by
  refine ⟨queryRD_matches_iff, fun resources => queryRD_perm,
    fun wider keeps apart widerApart holds => ?_⟩
  exact (queryRD_matches_iff.mpr widerApart).mpr
    (((queryRD_matches_iff.mpr apart).mp holds).weaken keeps)

/-- A device with one resource, of type `"y"`. -/
def oneResource : Client :=
  { Client.new 0 (.ofBytes [0x64]) with resList := [⟨.ofBytes [0x2F], .ofBytes [0x79], none⟩] }

/-- A query for the type `"x"`. -/
def queryX : RdQuery := ⟨none, none, none, some (.ofBytes [0x78]), none, none⟩

/-- It does not match the device; with the further condition `with_rts=y` it does. -/
theorem queryRD_withRts_fails : queryRD queryX oneResource = false ∧
    queryRD { queryX with withRts := some [.ofBytes [0x79]] } oneResource = true ∧
      ¬Matches { queryX with withRts := some [.ofBytes [0x79]] } oneResource := by
  refine ⟨by decide, by decide, fun holds => ?_⟩
  obtain ⟨resource, member, rt⟩ := holds.rt _ rfl
  obtain rfl := mem_singleton.mp member
  exact absurd rt (by decide)

end Queries

end Client

end Idrm.Devices
