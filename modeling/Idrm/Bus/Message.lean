import Idrm.Lib.Decimal

/-!
# Messages on the bus

A bus message is a set of string properties and a content. The broker library keeps
both as they are given; the code only ever uses the keys below.
-/

namespace Idrm.Bus

open Idrm.Lib

/-- The property keys of REST messages. -/
inductive BusKey where
  /-- `XK_TAG` -/
  | tag
  /-- `XK_MID` -/
  | mid
  /-- `XK_URI` -/
  | uri
  /-- `XK_QUERY` -/
  | query
  /-- `XK_ACTION` -/
  | action
  /-- `XK_FMT` -/
  | fmt
  /-- `XK_DEST` -/
  | dest
  /-- `XK_SRC` -/
  | src
  /-- `XK_RESP_CODE` -/
  | respCode
  /-- `XK_TM` -/
  | tm
deriving DecidableEq, Repr

/-- The properties of a message. -/
abbrev Properties := BusKey → Option CString

/-- `Map_AddOrUpdate` -/
def Properties.addOrUpdate (properties : Properties) (key : BusKey)
    (value : CString) : Properties :=
  Function.update properties key (some value)

@[simp] theorem Properties.addOrUpdate_apply (properties : Properties)
    (key : BusKey) (value : CString)
    (other : BusKey) : properties.addOrUpdate key value other = if other = key then some value
    else properties other := by
  simp [Properties.addOrUpdate, Function.update_apply]

/-- A property that is only sometimes set. -/
def Properties.addIf (properties : Properties) (condition : Bool) (key : BusKey) (value : CString) :
    Properties :=
  if condition then properties.addOrUpdate key value else properties

@[simp] theorem Properties.addIf_apply (properties : Properties) (condition : Bool) (key : BusKey)
    (value : CString) (other : BusKey) :
    properties.addIf condition key value other =
      if condition = true ∧ other = key then some value else properties other := by
  cases condition <;> simp [Properties.addIf]

/-- A property for an argument that may be `NULL`. -/
def Properties.addGiven (properties : Properties) (key : BusKey)
    (value : Option CString) : Properties :=
  match value with
  | none => properties
  | some value => properties.addOrUpdate key value

@[simp] theorem Properties.addGiven_none (properties : Properties) (key : BusKey) :
    properties.addGiven key none = properties := rfl

@[simp] theorem Properties.addGiven_some (properties : Properties)
    (key : BusKey) (value : CString) :
    properties.addGiven key (some value) = properties.addOrUpdate key value := rfl

/-- A message with its content. -/
structure BusMessage where
  properties : Properties
  content : List UInt8

/-- `TAG_REST_REQ`, `"req"` -/
def tagRestReq : CString := ⟨[0x72, 0x65, 0x71], by decide⟩
/-- `TAG_REST_RESP`, `"resp"` -/
def tagRestResp : CString := ⟨[0x72, 0x65, 0x73, 0x70], by decide⟩

/-- `TAG_EVENT`, `"evt"` -/
def tagEvent : CString := ⟨[0x65, 0x76, 0x74], by decide⟩

/-- `REST_ACTION_STR`: `"GET"`, `"POST"`, `"PUT"`, `"DEL"` -/
def restActionStrs : List CString :=
  [⟨[0x47, 0x45, 0x54], by decide⟩, ⟨[0x50, 0x4F, 0x53, 0x54], by decide⟩,
    ⟨[0x50, 0x55, 0x54], by decide⟩, ⟨[0x44, 0x45, 0x4C], by decide⟩]

/-- `"unknown"` -/
def unknownAction : CString := ⟨[0x75, 0x6E, 0x6B, 0x6E, 0x6F, 0x77, 0x6E], by decide⟩

/-- `T_Get`, the first of the actions. -/
def firstAction : Nat := 1

/-- `rest_action_str` -/
def restActionStr (action : Nat) : CString :=
  if firstAction ≤ action then restActionStrs.getD (action - firstAction) unknownAction
    else unknownAction

/-- `action_from_string`; `none` is its `-1`. -/
def actionFromString (action : CString) : Option Nat :=
  (restActionStrs.findIdx? (· = action)).map (· + firstAction)

/-- `rest_fmt_str` -/
def restFmtStr (fmt : Int32) : CString := decimal fmt.toInt

/-- `setup_bus_restful_message`; `moduleId` is `get_broker_module_id`. -/
def setupBusRestfulMessage (moduleId tag : CString) (fmt : Int32) (urlPath query : Option CString)
    (code : Nat) (payload : List UInt8) : BusMessage :=
  let properties : Properties := fun _ => none
  let properties := properties.addOrUpdate .tag tag
  let properties := properties.addIf (tag = tagRestReq) .action (restActionStr code)
  let properties := properties.addIf (tag = tagRestResp) .respCode (decimal code)
  let properties := properties.addGiven .uri urlPath
  let properties := properties.addGiven .query query
  let properties := properties.addIf (decide (fmt ≠ -1)) .fmt (restFmtStr fmt)
  ⟨properties.addOrUpdate .src moduleId, payload⟩

/-- `set_bus_message_property` -/
def BusMessage.set (message : BusMessage) (key : BusKey) (value : CString) : BusMessage :=
  { message with properties := message.properties.addOrUpdate key value }

@[simp] theorem BusMessage.set_properties (message : BusMessage) (key : BusKey) (value : CString) :
    (message.set key value).properties = message.properties.addOrUpdate key value := rfl

@[simp] theorem BusMessage.set_content (message : BusMessage) (key : BusKey) (value : CString) :
    (message.set key value).content = message.content := rfl

@[simp] theorem setupBusRestfulMessage_content (moduleId tag : CString)
    (fmt : Int32) (urlPath query : Option CString) (code : Nat) (payload : List UInt8) :
    (setupBusRestfulMessage moduleId tag fmt urlPath query code payload).content = payload := rfl

/-- The properties of a request whose payload has a format. -/
theorem setupBusRestfulMessage_request {fmt : Int32} (present : fmt ≠ -1) (moduleId : CString)
    (urlPath query : Option CString) (code : Nat) (payload : List UInt8) (key : BusKey) :
    (setupBusRestfulMessage moduleId tagRestReq fmt urlPath query code payload).properties key =
      match key with
      | .tag => some tagRestReq
      | .action => some (restActionStr code)
      | .uri => urlPath
      | .query => query
      | .fmt => some (restFmtStr fmt)
      | .src => some moduleId
      | .mid | .dest | .respCode | .tm => none := by
  have other : tagRestReq ≠ tagRestResp := by decide
  cases urlPath <;> cases query <;> cases key <;> simp [setupBusRestfulMessage, present, other]

theorem actionFromString_restActionStr {action : Nat} (least : 1 ≤ action) (most : action ≤ 4) :
    actionFromString (restActionStr action) = some action := by
  have all : ∀ index : Fin 4,
      actionFromString (restActionStr (index.val + 1)) = some (index.val + 1) := by
    decide
  have here := all ⟨action - 1, by omega⟩
  simpa only [Nat.sub_add_cancel least] using here

theorem atoi_restFmtStr (fmt : Int32) : atoi (restFmtStr fmt) = fmt := by
  rw [restFmtStr, atoi_decimal fmt.le_toInt fmt.toInt_lt, Int32.ofInt_toInt]

end Idrm.Bus
