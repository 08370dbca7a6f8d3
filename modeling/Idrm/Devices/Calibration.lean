import Idrm.Agent.SendRequest
import Idrm.Devices.ClientManager
import Idrm.Lib.Arrival

/-!
# Resources of a data url

`UrlMatchResource` finds the resource that a url belongs to,
  and what of the url lies behind it names
a property. `calibrate` resolves the url of some data in the same way,
  but cuts the property out of the
whole url, standard and device included.
-/

namespace Idrm

open Idrm.Lib Option List

namespace Devices

open Idrm.Agent

/-! ## The resource of a path -/

/-- A resource covers a path: the path is its url, or goes on behind it. -/
def ResObject.Covers (resource : ResObject) (path : CString) : Prop :=
  ∃ rest, Url.GoesOn resource.url.bytes path.bytes rest

/-- A property, unless it is empty. -/
def named (property : CString) : Option CString :=
  if property.bytes = [] then none else some property

/-- What `UrlMatchResource` looks for. -/
def matched (path : CString) (resource : ResObject) : Option (ResObject × Option CString) :=
  let offset := Url.checkUrlStart path.bytes resource.url.bytes
  if offset = 0 then none
  else some (resource, if offset < path.bytes.length then
    some (.ofBytes (path.bytes.drop offset)) else none)

section Resources

variable {path : CString} {resource : ResObject}

theorem urlMatchResource_eq (path : CString) (client : Client) :
    client.urlMatchResource path = client.resList.findSome? (matched path) := rfl

theorem covers_iff : resource.Covers path ↔ Url.checkUrlStart path.bytes resource.url.bytes ≠ 0 :=
  ⟨fun ⟨_, goesOn⟩ => (Url.goesOn_iff.mp goesOn).1,
    fun found => ⟨_, Url.goesOn_iff.mpr ⟨found, rfl⟩⟩⟩

theorem matched_eq_none_iff : matched path resource = none ↔ ¬resource.Covers path := by
  rw [covers_iff, not_not, matched]
  simp only [ite_eq_left_iff, reduceCtorEq, imp_false, not_not]

/-- The property is what lies behind the url of the resource. -/
theorem matched_eq_some_iff {found : ResObject} {property : Option CString} :
    matched path resource = some (found, property) ↔ found = resource ∧ ∃ rest : CString,
    Url.GoesOn resource.url.bytes path.bytes rest.bytes ∧ property = named rest := by
  generalize atOffset : Url.checkUrlStart path.bytes resource.url.bytes = offset
  have isRest : CString.ofBytes (path.bytes.drop offset) = path.drop offset :=
    CString.ofBytes_nulFree (path.drop offset).nulFree
  have isNamed : (if offset < path.bytes.length then some (CString.ofBytes (path.bytes.drop offset))
      else none) = named (path.drop offset) := by
    rw [isRest, named]
    by_cases inside : offset < path.bytes.length
    · rw [if_pos inside, if_neg (by simpa [CString.drop, drop_eq_nil_iff] using inside)]
    · rw [if_neg inside, if_pos (by simpa [CString.drop, drop_eq_nil_iff] using inside)]
  simp only [matched, atOffset, isNamed]
  by_cases apart : offset = 0
  · rw [if_pos apart]
    refine iff_of_false (some_ne_none _).symm ?_
    rintro ⟨-, rest, goesOn, -⟩
    exact (Url.goesOn_iff.mp goesOn).1 (atOffset.trans apart)
  · rw [if_neg apart, some_inj, Prod.mk.injEq]
    have goesOn : Url.GoesOn resource.url.bytes path.bytes (path.drop offset).bytes :=
      Url.goesOn_iff.mpr ⟨by rwa [atOffset], by rw [atOffset]; rfl⟩
    refine and_congr eq_comm ⟨fun same => ⟨_, goesOn, same.symm⟩, ?_⟩
    rintro ⟨rest, here, rfl⟩
    have same : rest = path.drop offset := CString.ext (here.drop.symm.trans goesOn.drop)
    rw [same]

/-- The resource that is found, in a list in some order. -/
theorem selected_eq (path : CString) (client : Client) :
    (client.urlMatchResource path).map (·.1) = client.resList.find? fun resource => decide
      (Url.checkUrlStart path.bytes resource.url.bytes ≠ 0) := by
  rw [urlMatchResource_eq, map_findSome?, List.find?_eq_findSome?_guard]
  refine congrArg (List.findSome? · client.resList) (funext fun resource => ?_)
  simp only [Function.comp_apply, matched, Option.guard]
  split
  · rename_i apart
    rw [if_neg (by simpa using apart)]
    rfl
  · rename_i found
    rw [if_pos (decide_eq_true found)]
    rfl

end Resources

/-! ## Calibration -/

/-- `g_device_category`: `"lwm2m"`, `"ep"`, `"ocf"`, `"modbus"`, `"iagent"`, `"ilink"`, `"self"` -/
def deviceCategories : List CString :=
  [.ofBytes [0x6C, 0x77, 0x6D, 0x32, 0x6D], .ofBytes [0x65, 0x70], .ofBytes [0x6F, 0x63, 0x66],
    .ofBytes [0x6D, 0x6F, 0x64, 0x62, 0x75, 0x73], .ofBytes [0x69, 0x61, 0x67, 0x65, 0x6E, 0x74],
    .ofBytes [0x69, 0x6C, 0x69, 0x6E, 0x6B], .ofBytes [0x73, 0x65, 0x6C, 0x66]]

/-- `check_uri_standard`; `none` is its `-1`. -/
def checkUriStandard (uri : CString) : Option Nat :=
  let uri := Url.skipSlash uri.bytes
  deviceCategories.findIdx? fun category =>
    uri.take category.bytes.length = category.bytes &&
      (uri[category.bytes.length]? = some Url.slash || uri.length = category.bytes.length)

/-- `calibrate`, up to its call of `CalibrateProperty`: the resource and the property; `supported`
is `fmt_calibrate_supported`. -/
def calibrateTarget (supported : Int32 → Bool) (directory : Directory) (urlBody : CString)
    (fmt : Int32) : Option (ResObject × CString) := do
  if supported fmt then
    let iurl ← SendRequest.parseIUrlBody urlBody
    let _ ← checkUriStandard iurl.standard
    let client ← directory.findClient iurl.device
    let (resource, _) ← client.urlMatchResource iurl.resUri
    some (resource, .ofBytes (Url.skipSlash (urlBody.bytes.drop resource.url.bytes.length)))
  else none

/-- `calibrate`; an empty result is its 0. -/
def calibrate (supported : Int32 → Bool)
    (calibrateProperty : ResObject → CString → Int32 → List UInt8 → List UInt8)
    (directory : Directory) (urlBody : CString) (fmt : Int32) (payload : List UInt8) : List UInt8 :=
  match calibrateTarget supported directory urlBody fmt with
  | none => []
  | some (resource, property) => calibrateProperty resource property fmt payload

section Calibrate

variable {supported : Int32 → Bool} {directory : Directory} {urlBody : CString} {fmt : Int32}
  {resource : ResObject} {property : CString}

/-- `calibrate` goes by `UrlMatchResource`. -/
theorem calibrateTarget_some
      (found : calibrateTarget supported directory urlBody fmt = some (resource, property)) :
    ∃ iurl client reported, SendRequest.parseIUrlBody urlBody = some iurl ∧
    (checkUriStandard iurl.standard).isSome ∧ directory.findClient iurl.device = some client ∧
    client.urlMatchResource iurl.resUri = some (resource, reported) ∧
    property = .ofBytes (Url.skipSlash (urlBody.bytes.drop resource.url.bytes.length)) := by
  unfold calibrateTarget at found
  split at found
  · obtain ⟨iurl, parsed, found⟩ := bind_eq_some_iff.mp found
    obtain ⟨standard, known, found⟩ := bind_eq_some_iff.mp found
    obtain ⟨client, registered, found⟩ := bind_eq_some_iff.mp found
    obtain ⟨⟨selected, reported⟩, selects, found⟩ := bind_eq_some_iff.mp found
    obtain ⟨rfl, rfl⟩ := Prod.mk.inj (some.inj found)
    exact ⟨iurl, client, reported, parsed, isSome_iff_exists.mpr ⟨_, known⟩,
      registered, selects, rfl⟩
  · cases found

/-! ### The property that `calibrate` cuts out -/

theorem dropWhile_slash {path rest : List UInt8}
    {byte : UInt8} (split : path.dropWhile (fun byte => decide (byte ≠ Url.slash)) = byte :: rest) :
    path = path.takeWhile (fun byte => decide (byte ≠ Url.slash)) ++ Url.slash :: rest := by
  have stops := List.head?_dropWhile_not (fun byte => decide (byte ≠ Url.slash)) path
  rw [split] at stops
  have isSlash : byte = Url.slash := not_not.mp (of_decide_eq_false stops)
  have whole := takeWhile_append_dropWhile (p := fun byte => decide (byte ≠ Url.slash)) (l := path)
  rw [split, isSlash] at whole
  exact whole.symm

/-- The url is a standard, a device and a path behind slashes. -/
theorem parseIUrlBody_some {iurl : SendRequest.IUrl}
    (parsed : SendRequest.parseIUrlBody urlBody = some iurl) : ∃ path, Url.skipSlash urlBody.bytes =
      iurl.standard.bytes ++ Url.slash :: (iurl.device.bytes ++ iurl.resUri.bytes) ∧
    iurl.resUri.bytes = Url.slash :: path := by
  unfold SendRequest.parseIUrlBody at parsed
  simp only at parsed
  split at parsed
  · cases parsed
  rename_i rest behindStandard
  split at parsed
  · cases parsed
  rename_i path behindDevice
  have whole := dropWhile_slash behindStandard
  have part := dropWhile_slash behindDevice
  have nulFree : (0 : UInt8) ∉ Url.skipSlash urlBody.bytes := by
    rw [← Url.drop_skipSlash]
    exact fun member => urlBody.nulFree (mem_of_mem_drop member)
  obtain rfl := some.inj parsed
  rw [whole, mem_append, mem_cons, not_or, not_or] at nulFree
  obtain ⟨standardFree, -, restFree⟩ := nulFree
  rw [part, mem_append, mem_cons, not_or, not_or] at restFree
  obtain ⟨deviceFree, -, pathFree⟩ := restFree
  have resourceFree : (0 : UInt8) ∉ Url.slash :: path :=
    not_mem_cons_of_ne_of_not_mem (by decide) pathFree
  simp only [CString.ofBytes_nulFree standardFree, CString.ofBytes_nulFree deviceFree,
    CString.ofBytes_nulFree resourceFree]
  exact ⟨path, by rw [← part, ← whole], rfl⟩

theorem length_skipSlash_le (path : List UInt8) : (Url.skipSlash path).length ≤ path.length := by
  rw [← Url.drop_skipSlash, length_drop]
  exact Nat.sub_le _ _

theorem le_length_skipSlash (path : List UInt8) :
    path.length ≤ (Url.skipSlash path).length + 1 := by
  rw [← Url.drop_skipSlash, length_drop]
  split
  · omega
  · omega

theorem length_le_stem (url : List UInt8) :
    url.length ≤ (Url.stripSlash (Url.skipSlash url)).length + 2 := by
  have front := le_length_skipSlash url
  have back : (Url.skipSlash url).length ≤ (Url.stripSlash (Url.skipSlash url)).length + 1 := by
    unfold Url.stripSlash
    split
    · rw [length_dropLast]
      omega
    · omega
  omega

theorem two_le_standard {standard : CString} (known : (checkUriStandard standard).isSome) :
    2 ≤ standard.bytes.length := by
  have short : ∀ category ∈ deviceCategories, 2 ≤ category.bytes.length := by decide
  rw [checkUriStandard, List.findIdx?_isSome, List.any_eq_true] at known
  obtain ⟨category, member, starts⟩ := known
  have front := of_decide_eq_true (Bool.and_eq_true_iff.mp starts).1
  have length := congrArg List.length front
  rw [length_take] at length
  have low := short category member
  have inside := length_skipSlash_le standard.bytes
  omega

/-- The property that `calibrate` passes on is longer than what goes on behind the resource. -/
theorem calibrateTarget_longer {iurl : SendRequest.IUrl} {rest : List UInt8}
    (found : calibrateTarget supported directory urlBody fmt = some (resource, property))
    (parsed : SendRequest.parseIUrlBody urlBody = some iurl)
    (goesOn : Url.GoesOn resource.url.bytes iurl.resUri.bytes rest) :
    rest.length < property.bytes.length := by
  obtain ⟨again, client, reported, parsedAgain, known, -, -, rfl⟩ := calibrateTarget_some found
  obtain rfl := some.inj (parsed.symm.trans parsedAgain)
  obtain ⟨path, whole, isPath⟩ := parseIUrlBody_some parsed
  have long := two_le_standard known
  have stem := length_le_stem resource.url.bytes
  have inside : (Url.skipSlash urlBody.bytes).length ≤ urlBody.bytes.length :=
    length_skipSlash_le urlBody.bytes
  have total := congrArg List.length whole
  rw [length_append, length_cons, length_append, isPath, length_cons] at total
  have short : (Url.stripSlash (Url.skipSlash resource.url.bytes)).length +
      rest.length ≤ path.length := by
    have isTail : Url.skipSlash iurl.resUri.bytes = path := by
      rw [isPath]
      exact if_pos List.head?_cons
    obtain ⟨-, ⟨same, rfl⟩ | more⟩ := goesOn
    · rw [← isTail, same]
      exact Nat.le_refl _
    · rw [← isTail, more, length_append, length_cons]
      omega
  have isProperty :
      (CString.ofBytes (Url.skipSlash (urlBody.bytes.drop resource.url.bytes.length))).bytes =
      Url.skipSlash (urlBody.bytes.drop resource.url.bytes.length) := by
    rw [← Url.drop_skipSlash, CString.ofBytes_nulFree]
    exact fun member => urlBody.nulFree (mem_of_mem_drop (mem_of_mem_drop member))
  have cut := le_length_skipSlash (urlBody.bytes.drop resource.url.bytes.length)
  rw [length_drop] at cut
  rw [isProperty]
  omega

end Calibrate

/-- `UrlMatchResource` selects the first resource of the list that covers the path, and reports what
goes on behind its url, unless that is empty; `calibrate` goes by the same resource; and the order
of the list does not matter exactly if all resources that cover the path are one. -/
theorem urlMatchResource_resolves (client : Client) (path : CString) :
    (∀ resource property, client.urlMatchResource path = some (resource, property) ↔
      ∃ front back, client.resList = front ++ resource :: back ∧
      (∀ other ∈ front, ¬other.Covers path) ∧ ∃ rest : CString,
      Url.GoesOn resource.url.bytes path.bytes rest.bytes ∧ property = named rest) ∧
    ((∀ links : List ResObject, links.Perm client.resList → (({ client with resList := links } :
      Client).urlMatchResource path).map (·.1) = (client.urlMatchResource path).map (·.1)) ↔
      ∀ one ∈ client.resList, ∀ other ∈ client.resList, one.Covers path →
        other.Covers path → one = other) ∧ ∀ supported directory urlBody fmt resource property,
        calibrateTarget supported directory urlBody fmt = some (resource, property) →
        ∃ iurl owner reported, SendRequest.parseIUrlBody urlBody = some iurl ∧
        directory.findClient iurl.device = some owner ∧
        owner.urlMatchResource iurl.resUri = some (resource, reported) := by
  refine ⟨fun resource property => ?_, ?_, ?_⟩
  · rw [urlMatchResource_eq, List.findSome?_eq_some_iff]
    constructor
    · rintro ⟨front, found, back, whole, isFound, others⟩
      obtain ⟨rfl, rest, goesOn, reported⟩ := matched_eq_some_iff.mp isFound
      exact ⟨front, back, whole, fun other member => matched_eq_none_iff.mp (others other member),
        rest, goesOn, reported⟩
    · rintro ⟨front, back, whole, others, rest, goesOn, reported⟩
      exact ⟨front, resource, back, whole, matched_eq_some_iff.mpr ⟨rfl, rest, goesOn, reported⟩,
        fun other member => matched_eq_none_iff.mpr (others other member)⟩
  · simp only [selected_eq]
    refine find?_perm_iff.trans ?_
    simp only [decide_eq_true_eq, covers_iff]
  · intro supported directory urlBody fmt resource property found
    obtain ⟨iurl, owner, reported, parsed, -, registered, selects, -⟩ := calibrateTarget_some found
    exact ⟨iurl, owner, reported, parsed, registered, selects⟩

/-- The resources `"/3"` and `"/3/0"`, as two links. -/
def nestedLinks : List Client.RdLink :=
  [⟨some (.ofBytes [0x2F, 0x33]), .text .empty, none⟩,
    ⟨some (.ofBytes [0x2F, 0x33, 0x2F, 0x30]), .text .empty, none⟩]

/-- A device `"d"` that posted some links. -/
def posted (links : List Client.RdLink) : Client :=
  (Client.new 0 (.ofBytes [0x64])).renewResources links

/-- For `"lwm2m/d/3/1"` `calibrate` passes on `"m2m/d/3/1"`, where the property is `"1"`; and
`"/3/0/1"` belongs to either resource, as the links were posted. -/
theorem calibrate_wholeUrl_fails :
    (calibrateTarget (fun _ => true) { Directory.start with list := [posted nestedLinks] }
        (.ofBytes [0x6C, 0x77, 0x6D, 0x32, 0x6D, 0x2F, 0x64, 0x2F, 0x33, 0x2F, 0x31]) 0).map (·.2) =
      some (.ofBytes [0x6D, 0x32, 0x6D, 0x2F, 0x64, 0x2F, 0x33, 0x2F, 0x31]) ∧
        ((posted nestedLinks).urlMatchResource (.ofBytes [0x2F, 0x33, 0x2F, 0x31])).map (·.2) =
        some (some (.ofBytes [0x31])) ∧
        ((posted nestedLinks).urlMatchResource (.ofBytes [0x2F, 0x33, 0x2F, 0x30, 0x2F, 0x31])).map
        (·.1.url) = some (.ofBytes [0x2F, 0x33]) ∧
        ((posted nestedLinks.reverse).urlMatchResource (.ofBytes [0x2F, 0x33, 0x2F, 0x30, 0x2F,
        0x31])).map (·.1.url) = some (.ofBytes [0x2F, 0x33, 0x2F, 0x30]) := by
  decide

end Devices

end Idrm
