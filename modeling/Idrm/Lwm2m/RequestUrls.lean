import Idrm.Lib.CString
import Idrm.Url.Start

/-!
# The urls of requests to the LwM2M server

`check_bus_message` takes the client's name from the url behind `lwm2m/`, and what follows it
is the path of the object. `get_uri_token` counts the characters of the name, and skips a
slash in front of it that it does not count.
-/

namespace Idrm.Lwm2m

open Idrm.Lib List

/-- `MAX_URI_TOKEN_LEN` -/
def maxUriTokenLen : Nat := 100

/-- `"lwm2m/"` -/
def lwm2mPrefix : List UInt8 := [0x6C, 0x77, 0x6D, 0x32, 0x6D, 0x2F]

/-- The loop of `get_uri_token`: the count, and the string in the buffer. -/
def copyToken : Nat → List UInt8 → List UInt8 → Nat × List UInt8
  | cnt, buffer, [] => (cnt, buffer)
  | cnt, buffer, ch :: uri =>
    if ch = Url.slash then (cnt, buffer)
    else if cnt + 1 = maxUriTokenLen then (cnt + 1, buffer)
    else copyToken (cnt + 1) (buffer ++ [ch]) uri

/-- `get_uri_token`, with the string in the buffer where it writes one. -/
def getUriToken (uri : List UInt8) : Nat × Option (List UInt8) :=
  if uri = [] then (0, none)
  else if Url.skipSlash uri = [] then (0, none)
  else
    let (cnt, buffer) := copyToken 0 [] (Url.skipSlash uri)
    (cnt, some buffer)

/-- The name and the rest behind it, as `check_bus_message` goes on with them. A count of 0
ends the request. -/
def splitToken (uri : List UInt8) : Option (List UInt8 × List UInt8) :=
  let (len, name) := getUriToken uri
  if len = 0 then none else name.map fun name => (name, uri.drop len)

/-- What `check_bus_message` makes of the url of a request, with the result of the assertion on its
start. -/
def requestTarget (uri : CString) : Option (Option (List UInt8 × List UInt8)) :=
  let uri := Url.skipSlash uri.bytes
  if uri.length ≤ lwm2mPrefix.length then some none
  else if uri.take lwm2mPrefix.length ≠ lwm2mPrefix then none
  else some (splitToken (uri.drop lwm2mPrefix.length))

/-- The name of the client in a url behind `lwm2m/`. -/
def clientName (url : List UInt8) : List UInt8 := (Url.skipSlash url).takeWhile (· ≠ Url.slash)

/-- The name and the rest, which is empty or begins with the separator, are the url without one
leading slash; and a name that the buffer has no room for is rejected. -/
structure LosesNothing (url : List UInt8) : Prop where
  concatenates : ∀ name rest, splitToken url = some (name, rest) →
    name ++ rest = Url.skipSlash url ∧ Url.slash ∉ name ∧
    (rest = [] ∨ ∃ path, rest = Url.slash :: path)
  rejects : maxUriTokenLen ≤ (clientName url).length → splitToken url = none

/-- Every url of the server is split behind its start. -/
theorem requestTarget_lwm2m {uri : CString}
    {url : List UInt8} (starts : Url.skipSlash uri.bytes = lwm2mPrefix ++ url) :
    requestTarget uri = some (splitToken url) := by
  simp only [requestTarget, starts, take_left, drop_left, ne_eq, not_true_eq_false, if_false]
  by_cases empty : url = []
  · subst empty
    rfl
  · have longer := length_pos_of_ne_nil empty
    rw [if_neg (by rw [length_append]; omega)]

/-- The loop counts and copies the name, up to the size of the buffer. -/
theorem copyToken_eq (uri : List UInt8) :
    ∀ (cnt : Nat) (buffer : List UInt8), cnt < maxUriTokenLen →
    copyToken cnt buffer uri = (min (cnt + (uri.takeWhile (· ≠ Url.slash)).length) maxUriTokenLen,
      buffer ++ (uri.takeWhile (· ≠ Url.slash)).take (maxUriTokenLen - 1 - cnt)) := by
  have size : maxUriTokenLen = 100 := rfl
  induction uri with
  | nil =>
    intro cnt buffer room
    rw [copyToken, takeWhile_nil, take_nil, append_nil, length_nil, Nat.add_zero,
      Nat.min_eq_left (Nat.le_of_lt room)]
  | cons ch uri ih =>
    intro cnt buffer room
    rw [copyToken]
    by_cases separator : ch = Url.slash
    · rw [if_pos separator, takeWhile_cons_of_neg (by simpa using separator), take_nil, append_nil,
        length_nil, Nat.add_zero, Nat.min_eq_left (Nat.le_of_lt room)]
    rw [if_neg separator, takeWhile_cons_of_pos (by simpa using separator), length_cons]
    by_cases full : cnt + 1 = maxUriTokenLen
    · rw [if_pos full, show maxUriTokenLen - 1 - cnt = 0 by omega, take_zero, append_nil, full,
        Nat.min_eq_right (by omega)]
    · rw [if_neg full, ih (cnt + 1) _ (by omega),
        show maxUriTokenLen - 1 - cnt = maxUriTokenLen - 1 - (cnt + 1) + 1 by omega,
        take_succ_cons, append_assoc, singleton_append, Nat.add_right_comm, Nat.add_assoc]

/-- A url without a name is rejected; else the name is cut where the buffer ends. -/
theorem splitToken_eq (url : List UInt8) : splitToken url = if clientName url = [] then none
    else some ((clientName url).take (maxUriTokenLen - 1),
      url.drop (min (clientName url).length maxUriTokenLen)) := by
  have copied := copyToken_eq (Url.skipSlash url) 0 [] (by decide)
  rw [Nat.zero_add, nil_append, Nat.sub_zero] at copied
  have nothing : Url.skipSlash url = [] → clientName url = [] := by
    intro empty
    rw [clientName, empty, takeWhile_nil]
  by_cases some : Url.skipSlash url = []
  · have token : getUriToken url = (0, none) := by
      rw [getUriToken, if_pos some, ite_self]
    rw [splitToken, token, if_pos (nothing some)]
    rfl
  have token : getUriToken url = (min (clientName url).length maxUriTokenLen,
      Option.some ((clientName url).take (maxUriTokenLen - 1))) := by
    have url' : url ≠ [] := fun empty => some (by rw [empty]; rfl)
    rw [getUriToken, if_neg url', if_neg some, copied]
    rfl
  simp only [splitToken, token, Option.map_some]
  by_cases named : clientName url = []
  · rw [if_pos named, named]
    rfl
  · have counted : min (clientName url).length maxUriTokenLen ≠ 0 := by
      have positive := length_pos_of_ne_nil named
      have size : maxUriTokenLen = 100 := rfl
      omega
    rw [if_neg named, if_neg counted]

/-- The name is followed by nothing or by the separator. -/
theorem skipSlash_eq (url : List UInt8) : ∃ rest, Url.skipSlash url = clientName url ++ rest ∧
    (rest = [] ∨ ∃ path, rest = Url.slash :: path) := by
  refine ⟨(Url.skipSlash url).dropWhile (· ≠ Url.slash), takeWhile_append_dropWhile.symm, ?_⟩
  have stopped := List.head?_dropWhile_not (· ≠ Url.slash) (Url.skipSlash url)
  cases behind : (Url.skipSlash url).dropWhile (· ≠ Url.slash) with
  | nil => exact .inl rfl
  | cons first path =>
    rw [behind] at stopped
    have separator : first = Url.slash := by simpa using stopped
    exact .inr ⟨path, by rw [separator]⟩

theorem slash_not_mem_clientName (url : List UInt8) : Url.slash ∉ clientName url := by
  intro member
  have kept := mem_takeWhile_imp member
  simp at kept

/-- A url behind `lwm2m/` is split without loss exactly where it has no name, or begins with a name
that fits the buffer. -/
theorem losesNothing_iff (url : List UInt8) : LosesNothing url ↔ clientName url = [] ∨
    url.head? ≠ some Url.slash ∧ (clientName url).length < maxUriTokenLen := by
  have size : maxUriTokenLen = 100 := rfl
  by_cases named : clientName url = []
  · have rejected : splitToken url = none := by rw [splitToken_eq, if_pos named]
    refine iff_of_true ⟨fun name rest split => ?_, fun _ => rejected⟩ (.inl named)
    rw [rejected] at split
    cases split
  have split : splitToken url = some ((clientName url).take (maxUriTokenLen - 1),
      url.drop (min (clientName url).length maxUriTokenLen)) := by
    rw [splitToken_eq, if_neg named]
  rw [or_iff_right named]
  constructor
  · intro losesNothing
    -- A name that is too long would have to be rejected.
    have fits : (clientName url).length < maxUriTokenLen := by
      by_contra long
      have rejected := losesNothing.rejects (Nat.not_lt.mp long)
      rw [split] at rejected
      cases rejected
    refine ⟨fun leading => ?_, fits⟩
    -- The slash is not counted, so that the name and the rest are one character too many.
    have concatenates := congrArg List.length (losesNothing.concatenates _ _ split).1
    have skipped : Url.skipSlash url = url.tail := if_pos leading
    obtain ⟨rest, parts, -⟩ := skipSlash_eq url
    have lengths := congrArg List.length parts
    have positive := length_pos_of_ne_nil named
    rw [skipped, length_append, length_tail] at lengths
    rw [skipped, length_append, length_tail, length_take, length_drop] at concatenates
    omega
  · rintro ⟨plain, fits⟩
    have same : Url.skipSlash url = url := if_neg plain
    have whole : (clientName url).take (maxUriTokenLen - 1) = clientName url :=
      take_of_length_le (by omega)
    rw [whole, Nat.min_eq_left (Nat.le_of_lt fits)] at split
    refine ⟨fun name rest split' => ?_, fun long => absurd fits (Nat.not_lt.mpr long)⟩
    obtain ⟨rfl, rfl⟩ := Prod.mk.inj (Option.some.inj (split.symm.trans split'))
    obtain ⟨rest, parts, behind⟩ := skipSlash_eq url
    have whole : url = clientName url ++ rest := same.symm.trans parts
    have left : url.drop (clientName url).length = rest :=
      (congrArg (List.drop (clientName url).length) whole).trans drop_left
    rw [left]
    exact ⟨parts.symm, slash_not_mem_clientName url, behind⟩

/-- `/dev/3/0`, as behind `lwm2m/` in `lwm2m//dev/3/0`. -/
def slashedUrl : List UInt8 := [0x2F, 0x64, 0x65, 0x76, 0x2F, 0x33, 0x2F, 0x30]

/-- A name of 100 characters, and a path. -/
def longUrl : List UInt8 := List.replicate 100 0x61 ++ [0x2F, 0x33]

/-- Behind a second slash the path of the object begins with the end of the name; and a name that is
too long loses its last character. -/
theorem splitToken_loses : (requestTarget (.ofBytes (lwm2mPrefix ++ slashedUrl)) =
      some (some ([0x64, 0x65, 0x76], [0x76, 0x2F, 0x33, 0x2F, 0x30])) ∧ ¬LosesNothing slashedUrl) ∧
      splitToken longUrl = some (List.replicate 99 0x61, [0x2F, 0x33]) ∧ ¬LosesNothing longUrl := by
  refine ⟨⟨rfl, fun losesNothing => ?_⟩, rfl, fun losesNothing => ?_⟩
  · exact absurd (losesNothing.concatenates _ _ rfl).1 (by decide)
  · exact absurd (losesNothing.rejects (by decide)) nofun

end Idrm.Lwm2m
