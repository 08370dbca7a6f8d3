import Idrm.Agent.Routing

/-!
# Replacing `dev` in a url

`check_url_generic_dev` writes the standard and the alias over the url before it looks whether the
rest still has room, and its test leaves none for the NUL. The url is replaced as a whole, or left
as it is, only where the whole new url fits; and a packet whose standard is missing loses the slash.
-/

namespace Idrm.Agent

open Idrm.Lib Idrm.Coap Idrm.Devices Option List

/-- A url `dev/<id><rest>`. -/
structure DevUrl (url : CString) (id rest : List UInt8) : Prop where
  parts : url.bytes = devSlash ++ id ++ rest
  section_ : Url.slash ∉ id
  next : rest = [] ∨ rest.head? = some Url.slash

/-- `<standard>` with `/<alias>` behind it if there is one, which is what is written first. -/
def standardPart (client : Client) : List UInt8 :=
  client.standard.bytes ++ if client.aliasName ≠ .empty then
    Url.slash :: client.aliasName.bytes else []

/-- `<standard>/<alias or id><rest>` -/
def replacedUrl (client : Client) (id rest : List UInt8) : List UInt8 :=
  client.standard.bytes ++ [Url.slash] ++
    (if client.aliasName ≠ .empty then client.aliasName.bytes else id) ++ rest

/-- The device whose standard replaces `dev`, where `check_url_generic_dev` comes to it. -/
def genericClient (directory : Directory) (urlBuffer : CString) : Option Client :=
  let deviceId := ((urlBuffer.bytes.drop 4).takeWhile (· ≠ Url.slash)).take 99
  if urlBuffer.bytes.length ≥ 511 ∨ deviceId.length = 99 then none
    else directory.findClient (.ofBytes deviceId)

/-- The strings that `url_buffer` holds one after the other. -/
def genericDevWrites (directory : Directory) (bufferLen : Nat) (urlBuffer : CString) :
    List (List UInt8) :=
  match genericClient directory urlBuffer with
  | none => []
  | some client =>
    let deviceId := ((urlBuffer.bytes.drop 4).takeWhile (· ≠ Url.slash)).take 99
    let rest := if client.aliasName ≠ .empty then urlBuffer.bytes.drop (4 + deviceId.length)
      else urlBuffer.bytes.drop 3
    [client.standard.bytes] ++ (if client.aliasName ≠ .empty then
      [client.standard.bytes ++ [Url.slash], standardPart client] else []) ++ (if bufferLen <
      (standardPart client).length + rest.length then [] else [standardPart client ++ rest])

/-- Every string written fits the buffer with its NUL. -/
def WritesFit (directory : Directory) (bufferLen : Nat) (urlBuffer : CString) : Prop :=
  ∀ written ∈ genericDevWrites directory bufferLen urlBuffer, written.length + 1 ≤ bufferLen

/-- The buffer and the packet's path are as they were, or both are the replaced url. -/
def AllOrNothing (directory : Directory) (message : Packet) (url : CString) (id rest : List UInt8)
    (result : GenericDev) : Prop :=
  (result.urlBuffer = url ∧ coapGetHeaderUriPath result.message = coapGetHeaderUriPath message) ∨
    ∃ client, directory.findClient (.ofBytes id) = some client ∧ result.urlBuffer.bytes =
    replacedUrl client id rest ∧ coapGetHeaderUriPath result.message = replacedUrl client id rest

/-- The device, if the url gets that far, has a standard that does not start with a slash and with
which the url still fits; or the url does not fit and is what is written first. -/
def ReplacesWhole (directory : Directory) (bufferLen : Nat) (url : CString)
    (id rest : List UInt8) : Prop :=
  url.bytes.length < 511 →
    id.length < 99 → ∀ client, directory.findClient (.ofBytes id) = some client →
    ((replacedUrl client id rest).length < bufferLen ∧ client.standard ≠ .empty ∧
    client.standard.bytes.head? ≠ some Url.slash) ∨
    (bufferLen < (replacedUrl client id rest).length ∧ standardPart client = url.bytes)

section Replace

variable {directory : Directory} {bufferLen : Nat} {message : Packet} {url : CString}
  {id rest : List UInt8} {client : Client}

/-! ## The parts of a url -/

theorem DevUrl.deviceId (dev : DevUrl url id rest) :
    (url.bytes.drop 4).takeWhile (· ≠ Url.slash) = id := by
  obtain ⟨parts, whole, next⟩ := dev
  have kept : ∀ byte ∈ id, decide (byte ≠ Url.slash) = true := by
    intro byte member
    have other : byte ≠ Url.slash := by
      rintro rfl
      exact whole member
    simpa using other
  have behind : url.bytes.drop 4 = id ++ rest := by
    rw [parts, append_assoc]
    rfl
  rw [behind, takeWhile_append_of_pos kept]
  rcases next with rfl | next
  · simp
  · obtain ⟨tail, rfl⟩ : ∃ tail, rest = Url.slash :: tail := by
      cases rest with
      | nil => cases next
      | cons byte tail => exact ⟨tail, by rw [some.inj next]⟩
    rw [takeWhile_cons_of_neg (by simp), append_nil]

/-- The device of a url whose id is short enough. -/
theorem DevUrl.client_eq (dev : DevUrl url id rest) :
    genericClient directory url = if url.bytes.length < 511 ∧ id.length < 99 then
    directory.findClient (.ofBytes id) else none := by
  unfold genericClient
  rw [dev.deviceId]
  by_cases short : url.bytes.length < 511 ∧ id.length < 99
  · have whole : id.take 99 = id := take_of_length_le (by omega)
    rw [whole, if_pos short, if_neg (by omega)]
  · rw [if_neg short, if_pos]
    rw [length_take]
    omega

/-- What is appended behind the standard, so that the whole is the replaced url. -/
theorem DevUrl.standardPart_append (dev : DevUrl url id rest) (short : id.length < 99) :
    standardPart client ++ (if client.aliasName ≠ .empty then url.bytes.drop
      (4 + (id.take 99).length) else url.bytes.drop 3) = replacedUrl client id rest := by
  have whole : id.take 99 = id := take_of_length_le (by omega)
  unfold standardPart replacedUrl
  rw [whole, dev.parts]
  by_cases named : client.aliasName ≠ .empty
  · rw [if_pos named, if_pos named, if_pos named]
    have behind : (devSlash ++ id ++ rest).drop (4 + id.length) = rest := by
      have length : 4 + id.length = (devSlash ++ id).length := by
        rw [length_append]
        rfl
      rw [length, drop_left]
    rw [behind]
    simp
  · rw [if_neg named, if_neg named, if_neg named]
    simp [devSlash, Url.slash]

/-- `check_url_generic_dev` by the device it comes to. -/
theorem DevUrl.genericDev_eq (dev : DevUrl url id rest) :
    genericDev directory bufferLen message url =
      match genericClient directory url with
      | none => ⟨url, message, false⟩
      | some client => appendRest bufferLen message (standardPart client) (if client.aliasName ≠
          .empty then url.bytes.drop (4 + (id.take 99).length) else url.bytes.drop 3) := by
  unfold genericDev genericClient standardPart
  rw [dev.deviceId]
  simp only
  by_cases long : url.bytes.length ≥ 511
  · rw [if_pos long, if_pos (.inl long)]
  · rw [if_neg long]
    by_cases wide : (id.take 99).length = 99
    · rw [if_pos wide, if_pos (.inr wide)]
    · rw [if_neg wide, if_neg (by omega)]
      cases directory.findClient (.ofBytes (id.take 99)) with
      | none => rfl
      | some client =>
        simp only
        by_cases named : client.aliasName ≠ .empty
        · rw [if_pos named, if_pos named, if_pos named]
          simp only [append_assoc, singleton_append]
        · rw [if_neg named, if_neg named, if_neg named, append_nil]

/-! ## What is written -/

theorem standardPart_nulFree : (0 : UInt8) ∉ standardPart client := by
  unfold standardPart
  split
  · simp [client.standard.nulFree, client.aliasName.nulFree, Url.slash]
  · simp [client.standard.nulFree]

theorem DevUrl.replaced_nulFree (dev : DevUrl url id rest) :
    (0 : UInt8) ∉ replacedUrl client id rest := by
  have whole := url.nulFree
  rw [dev.parts] at whole
  have idFree : (0 : UInt8) ∉ id :=
    fun inside => whole (mem_append_left _ (mem_append_right _ inside))
  have restFree : (0 : UInt8) ∉ rest := fun inside => whole (mem_append_right _ inside)
  unfold replacedUrl
  split
  · simp [client.standard.nulFree, client.aliasName.nulFree, restFree, Url.slash]
  · simp [client.standard.nulFree, idFree, restFree, Url.slash]

/-- What is written first is a part of the whole, and is the whole only behind an alias. -/
theorem DevUrl.standardPart_length (dev : DevUrl url id rest) (short : id.length < 99) :
    (standardPart client).length + (if client.aliasName ≠ .empty then
      url.bytes.drop (4 + (id.take 99).length) else url.bytes.drop 3).length =
      (replacedUrl client id rest).length := by
  rw [← length_append, dev.standardPart_append short]

/-- The strings written fit where the standard part does and the whole does not end at the last
byte. -/
theorem DevUrl.writesFit_iff (dev : DevUrl url id rest)
    (fits : url.bytes.length < 511) (short : id.length < 99)
    (found : directory.findClient (.ofBytes id) = some client) : WritesFit directory bufferLen url ↔
    (standardPart client).length < bufferLen ∧ (replacedUrl client id rest).length ≠ bufferLen := by
  have lengths : (standardPart client).length + _ = (replacedUrl client id rest).length :=
    dev.standardPart_length short
  have whole : standardPart client ++ _ = replacedUrl client id rest :=
    dev.standardPart_append short
  unfold WritesFit genericDevWrites
  rw [dev.client_eq, if_pos ⟨fits, short⟩, found]
  simp only [dev.deviceId]
  rw [lengths, whole]
  have first : (standardPart client).length = client.standard.bytes.length + if client.aliasName ≠
      .empty then 1 + client.aliasName.bytes.length else 0 := by
    unfold standardPart
    split
    · simp [Nat.add_comm]
    · simp
  constructor
  · intro written
    have part : (standardPart client).length + 1 ≤ bufferLen := by
      by_cases named : client.aliasName ≠ .empty
      · apply written
        rw [if_pos named]
        simp
      · have same : standardPart client = client.standard.bytes := by
          rw [standardPart, if_neg named, append_nil]
        rw [same]
        apply written
        simp
    refine ⟨part, ?_⟩
    intro atEnd
    have past := written (replacedUrl client id rest)
      (mem_append_right _ (by rw [if_neg (by omega)]; simp))
    omega
  · rintro ⟨part, other⟩ text member
    rcases mem_append.mp member with before | last
    · -- What comes before the whole is a beginning of the standard part.
      have begins : text.length ≤ (standardPart client).length := by
        by_cases named : client.aliasName ≠ .empty
        · rw [if_pos named] at before first
          simp only [mem_append, mem_cons, not_mem_nil, or_false] at before
          rcases before with rfl | rfl | rfl
          · omega
          · rw [length_append, length_singleton]
            omega
          · exact le_rfl
        · rw [if_neg named, append_nil, mem_singleton] at before
          rw [before, first]
          exact Nat.le_add_right _ _
      omega
    · split at last
      · cases last
      · rw [mem_singleton.mp last]
        omega

/-! ## Both or nothing -/

/-- Where no device is come to, nothing is written. -/
theorem DevUrl.stays (dev : DevUrl url id rest) (missing : genericClient directory url = none) :
    AllOrNothing directory message url id rest (genericDev directory bufferLen message url) ∧
    WritesFit directory bufferLen url := by
  constructor
  · rw [dev.genericDev_eq, missing]
    exact .inl ⟨rfl, rfl⟩
  · intro written member
    rw [genericDevWrites, missing] at member
    cases member

theorem DevUrl.overflows_iff (dev : DevUrl url id rest) (fits : url.bytes.length < 511)
    (short : id.length < 99) (found : directory.findClient (.ofBytes id) = some client)
    (inBuffer : url.bytes.length < bufferLen)
    (long : bufferLen < (replacedUrl client id rest).length) :
    (AllOrNothing directory message url id rest (genericDev directory bufferLen message url) ∧
      WritesFit directory bufferLen url) ↔ standardPart client = url.bytes := by
  have stays : genericDev directory bufferLen message url = ⟨.ofBytes (standardPart client),
      message, false⟩ := by
    rw [dev.genericDev_eq, dev.client_eq, if_pos ⟨fits, short⟩, found]
    simp only [appendRest]
    rw [dev.standardPart_length short, if_pos long]
  rw [stays, dev.writesFit_iff fits short found, CString.ofBytes_nulFree standardPart_nulFree]
  constructor
  · rintro ⟨kept | ⟨other, same, replaced, -⟩, part, -⟩
    · exact congrArg CString.bytes kept.1
    · -- The whole does not lie in the buffer, for the standard part does.
      obtain rfl : client = other := some.inj (found.symm.trans same)
      have lengths := congrArg List.length replaced
      simp only at lengths
      omega
  · intro same
    refine ⟨.inl ⟨CString.ext same, rfl⟩, ?_, by omega⟩
    rw [same]
    exact inBuffer

/-- A path that is set comes back whole where no slash leads it. -/
theorem dropWhile_slash_iff {text : List UInt8} : text.dropWhile (· = 0x2F) = text ↔
    text.head? ≠ some Url.slash := by
  cases text with
  | nil => simp
  | cons byte text =>
    rw [dropWhile_eq_self_iff]
    simp [Url.slash]

theorem replacedUrl_head_iff : (replacedUrl client id rest).head? ≠ some Url.slash ↔
    client.standard ≠ .empty ∧ client.standard.bytes.head? ≠ some Url.slash := by
  unfold replacedUrl
  cases standard : client.standard.bytes with
  | nil =>
    have empty : client.standard = .empty := CString.ext standard
    simp [empty]
  | cons byte bytes =>
    have named : client.standard ≠ .empty := by
      intro empty
      rw [empty] at standard
      cases standard
    simp [named]

theorem DevUrl.replaces_iff (dev : DevUrl url id rest) (fits : url.bytes.length < 511)
    (short : id.length < 99) (found : directory.findClient (.ofBytes id) = some client)
    (room : (replacedUrl client id rest).length ≤ bufferLen) :
    (AllOrNothing directory message url id rest (genericDev directory bufferLen message url) ∧
      WritesFit directory bufferLen url) ↔ (replacedUrl client id rest).length < bufferLen ∧
    client.standard ≠ .empty ∧ client.standard.bytes.head? ≠ some Url.slash := by
  have replaced :
      genericDev directory bufferLen message url = ⟨.ofBytes (replacedUrl client id rest),
      coapSetHeaderUriPath (.ofBytes (replacedUrl client id rest)) message, true⟩ := by
    rw [dev.genericDev_eq, dev.client_eq, if_pos ⟨fits, short⟩, found]
    simp only [appendRest]
    rw [dev.standardPart_length short, if_neg (by omega), dev.standardPart_append short]
  have path : coapGetHeaderUriPath (coapSetHeaderUriPath ⟨replacedUrl client id rest,
    dev.replaced_nulFree⟩ message) = (replacedUrl client id rest).dropWhile (· = 0x2F) :=
    coapGetHeaderUriPath_setPath ..
  have partLength : (standardPart client).length + _ = (replacedUrl client id rest).length :=
    dev.standardPart_length short
  have head : (replacedUrl client id rest).head? ≠ some Url.slash ↔ _ := replacedUrl_head_iff
  rw [replaced, dev.writesFit_iff fits short found,
    CString.ofBytes_nulFree dev.replaced_nulFree, ← head]
  constructor
  · rintro ⟨whole, part, other⟩
    refine ⟨by omega, ?_⟩
    rcases whole with ⟨same, -⟩ | ⟨other, same, -, inPacket⟩
    · -- An url that is its own replacement begins with `dev`.
      rw [show replacedUrl client id rest = url.bytes from congrArg CString.bytes same, dev.parts]
      simp [devSlash, Url.slash]
    · obtain rfl : client = other := some.inj (found.symm.trans same)
      rw [path, dropWhile_slash_iff] at inPacket
      exact inPacket
  · rintro ⟨less, plain⟩
    refine ⟨.inr ⟨client, found, rfl, ?_⟩, by omega, by omega⟩
    rw [path, dropWhile_slash_iff]
    exact plain

end Replace

/-- For every url `dev/<id><rest>` that fits its buffer: the buffer and the path are left or
replaced together and every string written fits exactly where the url is replaced as a whole. -/
theorem checkUrlGenericDev_allOrNothing_iff (directory : Directory)
    (bufferLen : Nat) (message : Packet) {url : CString} {id rest : List UInt8}
    (dev : DevUrl url id rest) (inBuffer : url.bytes.length < bufferLen) :
    ∃ result, checkUrlGenericDev directory bufferLen message url = .ok result ∧
    ((AllOrNothing directory message url id rest result ∧ WritesFit directory bufferLen url) ↔
      ReplacesWhole directory bufferLen url id rest) := by
  have begins : devSlash <+: url.bytes := ⟨id ++ rest, by rw [dev.parts, append_assoc]⟩
  refine ⟨genericDev directory bufferLen message url, if_pos begins, ?_⟩
  by_cases short : url.bytes.length < 511 ∧ id.length < 99
  · cases found : directory.findClient (.ofBytes id) with
    | none =>
      have missing : genericClient directory url = none := by
        rw [dev.client_eq, if_pos short, found]
      refine iff_of_true (dev.stays missing) ?_
      intro _ _ client same
      cases found.symm.trans same
    | some client =>
      have alone : ReplacesWhole directory bufferLen url id rest ↔
          ((replacedUrl client id rest).length < bufferLen ∧
          client.standard ≠ .empty ∧ client.standard.bytes.head? ≠ some Url.slash) ∨
          (bufferLen < (replacedUrl client id rest).length ∧ standardPart client = url.bytes) := by
        constructor
        · intro whole
          exact whole short.1 short.2 client found
        · intro whole _ _ other same
          obtain rfl : client = other := some.inj (found.symm.trans same)
          exact whole
      rw [alone]
      by_cases long : bufferLen < (replacedUrl client id rest).length
      · rw [dev.overflows_iff short.1 short.2 found inBuffer long]
        constructor
        · exact fun same => .inr ⟨long, same⟩
        · rintro (⟨less, -⟩ | ⟨-, same⟩)
          · omega
          · exact same
      · rw [dev.replaces_iff short.1 short.2 found (by omega)]
        constructor
        · exact .inl
        · rintro (whole | ⟨less, -⟩)
          · exact whole
          · exact absurd less long
  · have missing : genericClient directory url = none := by rw [dev.client_eq, if_neg short]
    refine iff_of_true (dev.stays missing) ?_
    intro fits less
    exact absurd ⟨fits, less⟩ short

/-- A directory with the device `"d"` of the standard `"modbus"`. -/
def modbusDirectory : Directory :=
  Directory.start.addClient { Client.new 1 (.ofBytes [0x64]) with
    standard := .ofBytes [0x6D, 0x6F, 0x64, 0x62, 0x75, 0x73] }

/-- The url `"dev/d/x"`. -/
def devUrl : CString := .ofBytes [0x64, 0x65, 0x76, 0x2F, 0x64, 0x2F, 0x78]

def devRequest : Packet := coapSetHeaderUriPath devUrl (coapInitMessage .con coapGet 1)

theorem devUrl_isDevUrl : DevUrl devUrl [0x64] [0x2F, 0x78] := ⟨rfl, by decide, .inr rfl⟩

/-- In a buffer of 64 bytes the url becomes `"modbus/d/x"`. -/
theorem checkUrlGenericDev_allOrNothing_modbus :
    ∃ result, checkUrlGenericDev modbusDirectory 64 devRequest devUrl = .ok result ∧
    AllOrNothing modbusDirectory devRequest devUrl [0x64] [0x2F, 0x78] result ∧
    WritesFit modbusDirectory 64 devUrl := by
  obtain ⟨result, checked, whole⟩ :=
    checkUrlGenericDev_allOrNothing_iff modbusDirectory 64 devRequest devUrl_isDevUrl (by decide)
  refine ⟨result, checked, whole.mpr ?_⟩
  intro _ _ client found
  obtain rfl := some.inj
    (found.symm.trans (rfl : modbusDirectory.findClient (.ofBytes [0x64]) = some _))
  exact .inl (by decide)

/-- A directory with the device `"d"`, whose standard is a name of 253 bytes. -/
def longDirectory : Directory :=
  Directory.start.addClient
    { Client.new 1 (.ofBytes [0x64]) with standard := .ofBytes (List.replicate 253 0x6D) }

set_option maxRecDepth 4000 in
/-- In the buffer of the callers only the long name is written, and the path stays. -/
theorem checkUrlGenericDev_short_fails : devUrl.bytes.length < urlSize ∧
    checkUrlGenericDev longDirectory urlSize devRequest devUrl = .ok ⟨.ofBytes
      (List.replicate 253 0x6D), devRequest, false⟩ ∧ ¬AllOrNothing longDirectory devRequest devUrl
      [0x64] [0x2F, 0x78] ⟨.ofBytes (List.replicate 253 0x6D), devRequest, false⟩ := by
  refine ⟨by decide, rfl, ?_⟩
  rintro (⟨same, -⟩ | ⟨client, -, replaced, path⟩)
  · exact absurd same (by decide)
  · exact absurd (path.trans replaced.symm) (by decide)

end Idrm.Agent
