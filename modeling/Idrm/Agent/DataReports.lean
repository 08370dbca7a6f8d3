import Idrm.Agent.BusHandlers

/-!
# Data by request and by event

Data of a resource comes to the refresher by a `POST` to `/refresher/s/d/r` or by an event under the
same url or `/dp/s/d/r`. `parse_iUrl_body` takes the first two segments of what it gets
  for the standard
and the device, and the handler of requests gives it the whole url.
-/

namespace Idrm.Agent

open Idrm.Lib Idrm.Bus Idrm.Devices List

/-- `"/dp/s/d/r"` or `"/refresher/s/d/r"`, by what is in front. -/
def dataUrl (front : CString) (standard device resource : CString) : CString :=
  front ++ (standard ++ SendRequest.slashString ++ (device ++ SendRequest.slashString ++ resource))

/-- `"/refresher/"` -/
def refresherFront : CString := ⟨refresherSlash, by decide⟩
/-- `"/dp/"` -/
def dpFront : CString := ⟨busDp, by decide⟩

/-- A `POST` of data to the refresher. -/
structure DataRequest (standard device resource fmt : CString) (request : BusMessage) : Prop where
  action : request.properties .action = some (restActionStr 2)
  uri : request.properties .uri = some (dataUrl refresherFront standard device resource)
  fmt : request.properties .fmt = some fmt

/-- An event with data. -/
structure DataEvent (standard device resource fmt : CString) (event : BusMessage) : Prop where
  uri : event.properties .uri = some (dataUrl dpFront standard device resource) ∨
    event.properties .uri = some (dataUrl refresherFront standard device resource)
  fmt : event.properties .fmt = some fmt

/-- The request and the event report the same data. -/
def SameReport (env : HandlerEnv) (request event : BusMessage) : Prop :=
  ∃ device uri fmt payload,
    handleRefresherData env request = .ok [.onDataPoint device uri fmt payload] ∧
    handleDataPoint event = [.onDataPoint device uri fmt payload]

section Reports

variable {env : HandlerEnv} {standard device resource fmt text : CString}
  {request event : BusMessage}

theorem takeWhile_segment {segment : CString} (free : Url.slash ∉ segment.bytes)
    (rest : List UInt8) : (segment.bytes ++ Url.slash :: rest).takeWhile
      (fun byte => decide (byte ≠ Url.slash)) = segment.bytes ∧
    (segment.bytes ++ Url.slash :: rest).dropWhile (fun byte => decide (byte ≠ Url.slash)) =
      Url.slash :: rest := by
  have passes : ∀ byte ∈ segment.bytes, decide (byte ≠ Url.slash) = true := fun byte member =>
    decide_eq_true fun isSlash => free (isSlash ▸ member)
  rw [takeWhile_append_of_pos passes, dropWhile_append_of_pos passes]
  simp

/-- A standard, a device and a path, behind a slash or not. -/
theorem parseIUrlBody_segments (standardFree : Url.slash ∉ standard.bytes)
    (deviceFree : Url.slash ∉ device.bytes) (whole : Url.skipSlash text.bytes = standard.bytes ++
      Url.slash :: (device.bytes ++ Url.slash :: resource.bytes)) : SendRequest.parseIUrlBody text =
      some ⟨standard, device, SendRequest.slashString ++ resource⟩ := by
  obtain ⟨standardTaken, standardDropped⟩ :=
    takeWhile_segment standardFree (device.bytes ++ Url.slash :: resource.bytes)
  obtain ⟨deviceTaken, deviceDropped⟩ := takeWhile_segment deviceFree resource.bytes
  have isResource :
      CString.ofBytes (Url.slash :: resource.bytes) = SendRequest.slashString ++ resource :=
    CString.ofBytes_nulFree (SendRequest.slashString ++ resource).nulFree
  unfold SendRequest.parseIUrlBody
  simp only [whole, standardTaken, standardDropped, deviceTaken, deviceDropped, isResource,
    CString.ofBytes_nulFree standard.nulFree, CString.ofBytes_nulFree device.nulFree]

/-- A request reports under its standard, and takes the device for a part of the resource. -/
theorem handleRefresherData_request (standardFree : Url.slash ∉ standard.bytes)
    (isRequest : DataRequest standard device resource fmt request) :
    handleRefresherData env request = .ok [.onDataPoint standard (SendRequest.slashString ++
      (device ++ SendRequest.slashString ++ resource)) (atoi fmt) request.content] := by
  have parsed : SendRequest.parseIUrlBody (dataUrl refresherFront standard device resource) =
      some ⟨.ofBytes refresherUrl, standard,
      SendRequest.slashString ++ (device ++ SendRequest.slashString ++ resource)⟩ :=
    parseIUrlBody_segments (by decide) standardFree
      (by simp [dataUrl, refresherFront, refresherSlash, busRefresher, refresherUrl,
      SendRequest.slashString, Url.skipSlash, Url.slash, CString.ofBytes])
  rw [handleRefresherData, valueOf_bind isRequest.action, if_neg (by decide), if_pos rfl,
    refresherPost, isRequest.uri, isRequest.fmt]
  simp only [reportData, parsed]

/-- The handler of events takes the name of the service off. -/
theorem handleDataPoint_event (isEvent : DataEvent standard device resource fmt event) :
    handleDataPoint event = reportData (standard ++ SendRequest.slashString ++
      (device ++ SendRequest.slashString ++ resource)) fmt event.content := by
  unfold handleDataPoint
  rcases isEvent.uri with dp | refresher
  · have other : ¬refresherSlash <+: (dataUrl dpFront standard device resource).bytes := by
      rintro ⟨rest, same⟩
      exact absurd (congrArg (fun bytes => bytes[1]?) same)
        (by simp [refresherSlash, busRefresher, dataUrl, dpFront, busDp])
    rw [dp, isEvent.fmt]
    simp only
    rw [if_neg other, if_pos ⟨_, rfl⟩]
    rfl
  · rw [refresher, isEvent.fmt]
    simp only
    rw [if_pos ⟨_, rfl⟩]
    rfl

/-- The resource of a request is longer than what the url of an event has behind its device. -/
theorem not_sameReport (standardFree : Url.slash ∉ standard.bytes)
    (isRequest : DataRequest standard device resource fmt request)
    (isEvent : DataEvent standard device resource fmt event) : ¬SameReport env request event := by
  rintro ⟨named, uri, format, payload, requested, reported⟩
  rw [handleRefresherData_request standardFree isRequest] at requested
  rw [handleDataPoint_event isEvent, reportData] at reported
  split at reported
  · cases reported
  rename_i url parsed
  injection requested with requested
  injection requested with requested
  injection requested with isDevice isUri
  injection reported with reported
  injection reported with isUrlDevice isUrlUri
  obtain ⟨path, whole, -⟩ := parseIUrlBody_some parsed
  have front := length_skipSlash_le
    (standard ++ SendRequest.slashString ++ (device ++ SendRequest.slashString ++ resource)).bytes
  have total := congrArg List.length whole
  rw [isUrlUri, ← isUri, isUrlDevice, ← isDevice] at total
  simp only [CString.append_bytes, length_append, length_cons] at front total
  omega

end Reports

/-- For every standard without a slash, device, resource, format and payload: a request reports the
data under the standard as its device, and the request and the event never report the same. -/
theorem dataReports_differ (env : HandlerEnv) {standard device resource fmt : CString}
    (standardFree : Url.slash ∉ standard.bytes) (deviceFree : Url.slash ∉ device.bytes)
    {request event : BusMessage} (isRequest : DataRequest standard device resource fmt request)
    (isEvent : DataEvent standard device resource fmt event)
    (content : request.content = event.content) : ¬SameReport env request event ∧
    handleRefresherData env request = .ok [.onDataPoint standard (SendRequest.slashString ++
      (device ++ SendRequest.slashString ++ resource)) (atoi fmt) event.content] ∧
    (standard ≠ .empty → handleDataPoint event =
      [.onDataPoint device (SendRequest.slashString ++ resource) (atoi fmt) event.content]) := by
  refine ⟨not_sameReport standardFree isRequest isEvent, ?_, fun given => ?_⟩
  · rw [handleRefresherData_request standardFree isRequest, content]
  · have filled : standard.bytes ≠ [] := fun empty => given (CString.ext empty)
    have whole : Url.skipSlash (standard ++ SendRequest.slashString ++
        (device ++ SendRequest.slashString ++ resource)).bytes =
        standard.bytes ++ Url.slash :: (device.bytes ++ Url.slash :: resource.bytes) := by
      simp only [CString.append_bytes, SendRequest.slashString, append_assoc, singleton_append]
      refine if_neg fun head => standardFree ?_
      rw [List.head?_append_of_ne_nil _ filled] at head
      exact mem_of_mem_head? head
    rw [handleDataPoint_event isEvent, reportData,
      parseIUrlBody_segments standardFree deviceFree whole]

/-- `"lwm2m"`, `"d"` and `"3/0/1"` -/
def sampleData : CString × CString × CString :=
  (⟨[0x6C, 0x77, 0x6D, 0x32, 0x6D], by decide⟩, ⟨[0x64], by decide⟩,
    ⟨[0x33, 0x2F, 0x30, 0x2F, 0x31], by decide⟩)

/-- The value `"5"` as plain text, by request and by event. -/
def sampleReports : BusMessage × BusMessage :=
  ({ messageWith [(.action, restActionStr 2),
    (.uri, dataUrl refresherFront sampleData.1 sampleData.2.1 sampleData.2.2), (.fmt, decimal 0)]
      with content := [0x35] },
    { messageWith [(.uri, dataUrl dpFront sampleData.1 sampleData.2.1 sampleData.2.2),
        (.fmt, decimal 0)] with content := [0x35] })

theorem sampleReports_request :
    DataRequest sampleData.1 sampleData.2.1 sampleData.2.2 (decimal 0) sampleReports.1 where
  action := by rfl
  uri := by rfl
  fmt := by rfl

theorem sampleReports_event :
    DataEvent sampleData.1 sampleData.2.1 sampleData.2.2 (decimal 0) sampleReports.2 where
  uri := .inl (by rfl)
  fmt := by rfl

/-- The request reports `"/d/3/0/1"` of a device `"lwm2m"`, the event `"/3/0/1"` of `"d"`. -/
theorem sampleReports_fail : handleRefresherData (sampleHandlers fun _ => true) sampleReports.1 =
      .ok [.onDataPoint sampleData.1 (SendRequest.slashString ++
      (sampleData.2.1 ++ SendRequest.slashString ++ sampleData.2.2)) 0 [0x35]] ∧
    handleDataPoint sampleReports.2 =
      [.onDataPoint sampleData.2.1 (SendRequest.slashString ++ sampleData.2.2) 0 [0x35]] ∧
    ¬SameReport (sampleHandlers fun _ => true) sampleReports.1 sampleReports.2 :=
  ⟨by rfl, by rfl, not_sameReport (by decide) sampleReports_request sampleReports_event⟩

theorem dataReports_differ_sample :
    ¬SameReport (sampleHandlers fun _ => true) sampleReports.1 sampleReports.2 :=
  (dataReports_differ _ (by decide) (by decide) sampleReports_request sampleReports_event rfl).1

end Idrm.Agent
