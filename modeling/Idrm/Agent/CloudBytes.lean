import Idrm.Agent.Routing
import Idrm.Ilink.RoundTrip
import Idrm.Ilink.VheaderRoundTrip

/-!
# Messages from the cloud as bytes

A request of the cloud is a CoAP message over TCP in an ilink frame,
  behind a vheader that names an agent and an endpoint.
`handle_cloud_packet` gets the frames in chunks of any size,
  and `get_key_value` and `coap_parse_message_tcp` read the
vheader and the payload where they lie. What they find is what was sent.
-/

namespace Idrm.Agent

open Idrm.Lib Idrm.Coap Idrm.Ilink Idrm.Devices Option List

/-- `K_AGENT_ID` -/
def keyAgentId : CString := .ofBytes [0x5F, 0x61, 0x69, 0x64]
/-- `K_EP` -/
def keyEp : CString := .ofBytes [0x5F, 0x65, 0x70]

/-- The string of a node, if its type is `T_Str`. -/
def stringValue : VheaderValue → Option CString
  | .sVal value => some value
  | _ => none

/-- `get_key_value`; `none` is a read through `NULL` or behind the bytes of the vheader. -/
def getKeyValue (message : IlinkMessage) (key : CString) : Option (Option CString) :=
  message.vheader.bind fun vheader =>
    (vheaderRawFindKey key vheader message.vheaderLen.toNat).map fun result =>
      result.toOption.bind stringValue

/-- What `coap_parse_message_tcp` makes of a payload whose length fits its 16-bit argument; `none`
is a read behind it. -/
def parsePayload (message : IlinkMessage) : Option (Option Packet) :=
  (coapParseMessageTcp message.payloadBytes).map fun
    | .ok parsed => some (received parsed)
    | .error _ => none

/-- A message with what its handlers read of it. -/
def readMessage (message : IlinkMessage) : Option CloudMessage :=
  (getKeyValue message keyAgentId).bind fun agent =>
    (getKeyValue message keyEp).bind fun ep => (parsePayload message).map fun parsed =>
      ⟨message, agent, ep, parsed⟩

/-! ## Sending -/

/-- A message of the cloud: the fields of its frame, the calls that made its vheader, and its
packet. -/
structure CloudSend where
  frame : IlinkMessage
  initialNum : UInt16
  increase : UInt16
  events : List VheaderEvent
  packet : Packet

namespace CloudSend

variable (send : CloudSend)

def vheader : VheaderTable :=
  send.events.foldl vheaderPerform (vheaderInit send.initialNum send.increase)

/-- The string under a key of the vheader. -/
def string (key : CString) : Option CString := (vheaderLookup key send.vheader).bind stringValue

/-- The message that is put in a frame. -/
def message : Option IlinkMessage :=
  (vheaderCompose send.vheader.toIlinkVheader).bind fun vheader =>
    (coapSerializeMessageTcp send.packet).map fun (payload, _) =>
    { send.frame with
      msgType := coapOverTcp
      vheader := some vheader
      vheaderLen := UInt32.ofNat vheader.length
      payload := some payload
      payloadLen := UInt32.ofNat payload.length }

/-- A request has an id, a node of the vheader is in use, the packet can be written and its length
announced, and the frame is short. -/
structure Legal : Prop where
  requestHasMid : send.frame.isReq = true → send.frame.hasMid = true
  inUse : ∃ node ∈ send.vheader.nodes, node.used = true
  expressible : Expressible send.packet
  fits : FitsTcp send.packet
  represented : contentLength send.packet ≠ 268
  short : (send.vheader.nodes.map vheaderNodeLen).sum + 4 + (tcpMessage send.packet).length < 0x8000

/-- What is read of a message that was sent, and where it goes after the handshake. Without a token
the packet comes with the bytes of its message id. -/
structure ReadAs (read : CloudMessage) : Prop where
  hasMid : read.ilinkMsg.hasMid = send.frame.hasMid
  isReq : read.ilinkMsg.isReq = send.frame.isReq
  msgID : read.ilinkMsg.msgID = if send.frame.hasMid then send.frame.msgID else 0
  agent : read.agent = send.string keyAgentId
  ep : read.ep = send.string keyEp
  parsed : ∃ packet, read.parsed = some packet ∧ packet.code = send.packet.code ∧
    packet.token.bytes =
    (if send.packet.token.bytes = [] then midBytes send.packet.mid else send.packet.token.bytes) ∧
    SameOptions send.packet packet ∧ packet.payload = send.packet.payload
  subAgent : ∀ (link : CloudLink) (directory : Directory), link.handshakeDone = true →
    ∀ agent ∈ send.string keyAgentId,
    link.isMyAgentId agent = false → handleIlinkMessage link directory read = .ok (.subAgent agent)
  mine : ∀ (link : CloudLink) (directory : Directory), link.handshakeDone = true →
    (∀ agent ∈ send.string keyAgentId, link.isMyAgentId agent = true) →
      handleIlinkMessage link directory read = handleTypeCoap link directory read

end CloudSend

/-! ## Reading the parts -/

/-- A vheader that was composed is read the same where more bytes lie behind it. -/
theorem rawFindKey_composed {vheader : VheaderTable} (formed : WellFormed vheader.nodes)
    (inUse : ∃ node ∈ vheader.nodes, node.used = true)
    (short : (vheader.nodes.map vheaderNodeLen).sum + 4 ≤ 65535) :
    ∃ bytes, vheaderCompose vheader.toIlinkVheader = some bytes ∧
    bytes.length = (vheader.nodes.map vheaderNodeLen).sum + 4 ∧
    ∀ (key : CString) (behind : List UInt8) (len : Nat), bytes.length ≤ len →
    ∃ result, vheaderRawFindKey key (bytes ++ behind) len = some result ∧
    result.toOption = vheaderLookup key vheader := by
  obtain ⟨-, sum, count, find⟩ := usedItems_eq formed.set
  have composed := compose_eq formed inUse
  have distinct := usedItems_distinct formed
  have atLeast := length_le_bytes (usedItems vheader.nodes)
  rw [sum] at composed short ⊢
  generalize usedItems vheader.nodes = items at composed short sum count find atLeast distinct ⊢
  have isNum : (vheaderGetNodesNum vheader.toIlinkVheader).toNat = items.length := by
    rw [vheaderGetNodesNum, count, UInt16.toNat_ofNat']
    omega
  have isTotal : (UInt16.ofNat ((items.flatMap (·.bytes)).length + 4)).toNat =
      (items.flatMap (·.bytes)).length + 4 := by
    rw [UInt16.toNat_ofNat']
    omega
  generalize vheaderGetNodesNum vheader.toIlinkVheader = num at composed isNum
  generalize UInt16.ofNat ((items.flatMap (·.bytes)).length + 4) = total at isTotal
  rw [← isTotal] at composed
  have length : (beBytes 2 total.toNat ++ beBytes 2 num.toNat ++ items.flatMap (·.bytes)).length =
      total.toNat := by
    rw [length_append, length_append, beBytes_length, beBytes_length]
    omega
  refine ⟨_, composed, length.trans isTotal, fun key behind len whole => ?_⟩
  obtain ⟨-, raw⟩ := readers_of_lengths total num (items.flatMap (·.bytes) ++ behind) len (by omega)
  have room : (0 : UInt16).toNat + (items.flatMap (·.bytes)).length ≤ total.toNat := by
    rw [UInt16.toNat_zero]
    omega
  obtain ⟨within, -⟩ := countsWithin_of_length room
  obtain ⟨result, found, same, -⟩ := rawFindItems_eq key total 0 items behind
  refine ⟨result, ?_, ?_⟩
  · rw [append_assoc, raw, isNum, found]
  · rw [same, firstWithin_eq_firstValue within, lookup_eq_find, find]

section Reading

variable {send : CloudSend} {got : IlinkMessage} {bytes : List UInt8}

/-- What lies under a key of a vheader is found where a frame carried it. -/
theorem getKeyValue_carried {key : CString}
    {found : Option VheaderValue} (carried : got.vheaderBytes = bytes) (some' : bytes ≠ [])
    (finds : ∀ (behind : List UInt8) (len : Nat), bytes.length ≤ len → ∃ result,
      vheaderRawFindKey key (bytes ++ behind) len = some result ∧ result.toOption = found) :
    getKeyValue got key = some (found.bind stringValue) := by
  rw [IlinkMessage.vheaderBytes] at carried
  cases isBlock : got.vheader with
  | none =>
    rw [isBlock, getD_none, take_nil] at carried
    exact absurd carried.symm some'
  | some block =>
    rw [isBlock, getD_some] at carried
    have within : bytes.length ≤ got.vheaderLen.toNat := carried ▸ length_take_le _ _
    -- The payload can lie behind the vheader in one block.
    obtain ⟨behind, rfl⟩ : ∃ behind, block = bytes ++ behind :=
      ⟨block.drop got.vheaderLen.toNat, by rw [← carried, take_append_drop]⟩
    obtain ⟨result, read, same⟩ := finds behind _ within
    rw [getKeyValue, isBlock, bind_some, read, map_some, same]

/-- After the handshake a CoAP message with a vheader goes to the agent that it names. -/
theorem handleIlinkMessage_named {link : CloudLink}
    {read : CloudMessage} (directory : Directory) (shook : link.handshakeDone = true)
    (headed : read.ilinkMsg.vheader ≠ none) (coap : read.ilinkMsg.msgType = coapOverTcp) :
    (∀ agent ∈ read.agent, link.isMyAgentId agent = false →
      handleIlinkMessage link directory read = .ok (.subAgent agent)) ∧
    ((∀ agent ∈ read.agent, link.isMyAgentId agent = true) →
      handleIlinkMessage link directory read = handleTypeCoap link directory read) := by
  rw [handleIlinkMessage, if_neg (by simp [shook]), if_neg headed]
  constructor
  · intro agent named other
    simp only [mem_def.mp named, filter_some, other, Bool.not_false, if_true]
  · intro mine
    have unnamed : read.agent.filter (fun agent => !link.isMyAgentId agent) = none := by
      rw [filter_eq_none_iff]
      exact fun agent named => by simp [mine agent named]
    simp only [unnamed, coap, if_true]

/-- A legal message can be sent, and is read as it was sent wherever a frame carries it. -/
theorem CloudSend.Legal.reads (legal : send.Legal) :
    ∃ sent, send.message = some sent ∧ Ilink.Sendable sent ∧
      ∀ got, Ilink.Carries sent got → ∃ read, readMessage got = some read ∧ send.ReadAs read := by
  have short := legal.short
  have formed : WellFormed send.vheader.nodes := .built send.initialNum send.increase send.events
  obtain ⟨bytes, composed, size, finds⟩ := rawFindKey_composed formed legal.inUse (by omega)
  have written := coapSerializeMessageTcp_fits legal.fits
  have some' : bytes ≠ [] := ne_nil_of_length_pos (by omega)
  have vheaderLen : (UInt32.ofNat bytes.length).toNat = bytes.length := by
    rw [UInt32.toNat_ofNat']
    omega
  have payloadLen :
      (UInt32.ofNat (tcpMessage send.packet).length).toNat = (tcpMessage send.packet).length := by
    rw [UInt32.toNat_ofNat']
    omega
  refine ⟨{ send.frame with
      msgType := coapOverTcp
      vheader := some bytes
      vheaderLen := UInt32.ofNat bytes.length
      payload := some (tcpMessage send.packet)
      payloadLen := UInt32.ofNat (tcpMessage send.packet).length }, ?_, ?_, fun got carries => ?_⟩
  · rw [CloudSend.message, composed, bind_some, written]
    rfl
  · refine ⟨legal.requestHasMid, (by decide : coapOverTcp.toNat < 128),
      .inr ⟨_, bytes, composed, some', rfl, vheaderLen⟩, payloadLen.symm, ?_⟩
    rw [IlinkMessage.frameLen, vheaderLen, payloadLen]
    omega
  · have vheaderIs : got.vheaderBytes = bytes :=
      carries.vheader.trans (by simp [IlinkMessage.vheaderBytes, vheaderLen])
    have payloadIs : got.payloadBytes = tcpMessage send.packet :=
      carries.payload.trans (by simp [IlinkMessage.payloadBytes, payloadLen])
    obtain ⟨parsed, accepted, view⟩ :=
      coapParseMessageTcp_tcpMessage legal.expressible legal.fits legal.represented (by omega)
    have header := delivered_header send.packet
      ⟨1, .non, send.packet.code, tokenMid (tcpToken send.packet).bytes, tcpToken send.packet⟩
    refine ⟨⟨got, send.string keyAgentId, send.string keyEp, some (received parsed)⟩, ?_, ?_⟩
    · rw [readMessage, getKeyValue_carried vheaderIs some' (finds keyAgentId), bind_some,
        getKeyValue_carried vheaderIs some' (finds keyEp), bind_some, parsePayload,
        payloadIs, accepted]
      rfl
    · have headed : got.vheader ≠ none := by
        intro headless
        rw [IlinkMessage.vheaderBytes, headless, getD_none, take_nil] at vheaderIs
        exact some' vheaderIs.symm
      have routed :=
        fun (link : CloudLink) (directory : Directory) (shook : link.handshakeDone = true) =>
        @handleIlinkMessage_named link ⟨got, send.string keyAgentId, send.string keyEp,
          some (received parsed)⟩ directory shook headed carries.msgType
      refine ⟨carries.hasMid, carries.isReq, carries.msgID, rfl, rfl, ⟨received parsed, rfl,
        ?_, ?_, ?_, ?_⟩, fun link directory shook => (routed link directory shook).1,
        fun link directory shook => (routed link directory shook).2⟩
      · rw [view, header.code]
      · rw [view, header.token, tcpToken_bytes]
      · rw [view]
        exact delivered_sameOptions legal.expressible _
      · rw [view]
        rfl

end Reading

/-! ## A connection -/

section Connection

variable {malloc : Nat → Option (List UInt8)} {sends : List (List UInt8 × CloudSend)}
  {segments : List (List UInt8 × IlinkMessage)}

/-- What the agent reads of its messages, one for each that was sent. -/
def ReadInOrder (sends : List (List UInt8 × CloudSend)) (messages : List IlinkMessage) : Prop :=
  List.Forall₂ (fun send message => ∃ read, readMessage message = some read ∧ send.2.ReadAs read)
    sends messages

/-- The frames of a connection, each behind what lies before it. -/
def framesOf (sends : List (List UInt8 × CloudSend)) : Option (List (List UInt8 × IlinkMessage)) :=
  sends.mapM fun send => send.2.message.map (send.1, ·)

/-- The frames of legal messages can be sent, and what they carry is read. -/
theorem framesOf_legal (legal : ∀ send ∈ sends, send.2.Legal) :
    ∃ segments, framesOf sends = some segments ∧ segments.map (·.1) = sends.map (·.1) ∧
    (∀ segment ∈ segments, Ilink.Sendable segment.2) ∧ ∀ messages,
    List.Forall₂ Ilink.Carries (segments.map (·.2)) messages → ReadInOrder sends messages := by
  induction sends with
  | nil =>
    refine ⟨[], rfl, rfl, by simp, fun messages carried => ?_⟩
    cases carried
    exact .nil
  | cons send rest ih =>
    obtain ⟨sent, isSent, sendable, reads⟩ := (legal send mem_cons_self).reads
    obtain ⟨segments, framed, noises, allSendable, allRead⟩ :=
      ih fun other member => legal other (mem_cons_of_mem _ member)
    refine ⟨(send.1, sent) :: segments, ?_, ?_, ?_, fun messages carried => ?_⟩
    · rw [framesOf] at framed ⊢
      rw [mapM_cons, framed, isSent]
      rfl
    · rw [map_cons, map_cons, noises]
    · exact forall_mem_cons.mpr ⟨sendable, allSendable⟩
    · cases carried with
      | cons first others => exact .cons (reads _ first) (allRead _ others)

/-- The chunks of a stream leave what its bytes leave one by one. -/
theorem handleCloudPackets_flatten {ctx : RecvContext}
    (wellFormed : ctx.WellFormed) (chunks : List (List UInt8)) :
    handleCloudPackets malloc chunks ctx = feedBytes malloc chunks.flatten ctx := by
  induction chunks generalizing ctx with
  | nil => rfl
  | cons chunk rest ih =>
    rw [handleCloudPackets, handleCloudPacket_eq_feedBytes chunk wellFormed, flatten_cons,
      feedBytes_append]
    cases fed : feedBytes malloc chunk ctx with
    | none => rfl
    | some first =>
      rw [bind_some, bind_some, ih (feedBytes_wellFormed wellFormed fed)]

/-- Whatever legal messages the cloud sends on a connection, with bytes that open no frame between
them, and however the stream is cut into chunks: the agent is handed one message for each, in order,
reads in it the id, the strings of its keys and the packet that were sent, and after the handshake
hands on what names another agent. -/
theorem handleCloudPackets_read (succeeds : MallocSucceeds malloc) (trailing : List UInt8)
    (legal : ∀ send ∈ sends, send.2.Legal) (quiet : ∀ send ∈ sends, ∀ byte ∈ send.1, ¬IsSync byte)
    (quietEnd : ∀ byte ∈ trailing, ¬IsSync byte) {ctx : RecvContext}
    (idle : ctx.phase = .notStart) : ∃ segments, framesOf sends = some segments ∧
    ∀ chunks : List (List UInt8), chunks.flatten = frameStream segments trailing → ∃ received,
    handleCloudPackets malloc chunks ctx = some received ∧ received.ctx.phase = .notStart ∧
    ReadInOrder sends received.delivered := by
  have wellFormed : ctx.WellFormed := by simp [RecvContext.WellFormed, idle]
  obtain ⟨segments, framed, noises, sendable, read⟩ := framesOf_legal legal
  have quietSegments : ∀ segment ∈ segments, ∀ byte ∈ segment.1, ¬IsSync byte := by
    intro segment member
    have noise : segment.1 ∈ sends.map (·.1) := noises ▸ List.mem_map_of_mem member
    obtain ⟨send, sendMember, same⟩ := List.mem_map.mp noise
    exact same ▸ quiet send sendMember
  obtain ⟨received, fed, phase, carried⟩ :=
    feedBytes_frameStream malloc succeeds sendable quietSegments quietEnd idle
  refine ⟨segments, framed, fun chunks stream => ⟨received, ?_, phase, read _ carried⟩⟩
  rw [handleCloudPackets_flatten wellFormed, stream, fed]

/-- A `GET` of `"a"` for the agent `"b"` and the endpoint `"c"`. -/
def askEndpoint : CloudSend where
  frame := { IlinkMessage.zero with hasMid := true, isReq := true, msgID := 7 }
  initialNum := 1
  increase := 1
  events := [.setValueS keyAgentId (.ofBytes [0x62]), .setValueS keyEp (.ofBytes [0x63])]
  packet := { coapInitMessage .con coapGet 1 with uriPath := [0x61], options := {11} }

theorem handleCloudPackets_read_askEndpoint : askEndpoint.string keyEp = some (.ofBytes [0x63]) ∧
    ∃ segments, framesOf [([0x00], askEndpoint)] = some segments ∧
    ∀ chunks : List (List UInt8), chunks.flatten = frameStream segments [] → ∃ received,
    handleCloudPackets mallocZeroed chunks .zero = some received ∧ received.ctx.phase = .notStart ∧
    ReadInOrder [([0x00], askEndpoint)] received.delivered := by
  have legal : askEndpoint.Legal := by
    refine ⟨fun _ => rfl, ⟨_, mem_cons_self, rfl⟩, ⟨?_, ?_, ?_, ?_⟩,
      ⟨by decide, by decide⟩, by decide, by decide⟩
    · have numbers : ∀ number ∈ askEndpoint.packet.options, number = 11 := by decide
      exact fun number member => ⟨.uriPath, (numbers number member).symm, rfl⟩
    · exact cleanStrings_of (by decide) (by decide) (by decide) (by decide)
    · exact fun present => absurd present (by decide)
    · exact fun present => absurd present (by decide)
  exact ⟨by decide, handleCloudPackets_read mallocZeroed_succeeds [] (by simp [legal])
    (by simp [IsSync, fixedcharNoMsgid, fixedcharRequest, fixedcharRespinse]) (by simp) rfl⟩

end Connection

end Idrm.Agent
