/-
Events as they are sent: JSON texts of one line each, in messages of their
own.  What a client has read of a connection, wherever it breaks off, is the
events that were sent first, and no text of an event can pass for another.
-/
import Kettle.Lib.JsonCompact
import Kettle.Lib.ServerSentEvents
import Kettle.Server.Job

namespace Kettle

namespace Server

open Json

theorem range_toNat (n : UInt64) :
    -2 ^ 63 ≤ (n.toNat : Int) ∧ (n.toNat : Int) < 2 ^ 64 := by
  have hlt := n.toNat_lt
  omega

/-- A `usize` is written as a number. -/
def writeUsize (n : Nat) : Json :=
  .number (.integer (UInt64.ofNat n).toNat (range_toNat _))

def readUnsigned (value : Int) : Option Nat :=
  if 0 ≤ value then some value.toNat else none

def readUsize : Json → Option Nat
  | .number (.integer value _) => readUnsigned value
  | _ => none

/-- A variant by the name that it has in the text. -/
def tagged (tag name : String) (fields : List (String × Json)) : Json :=
  .object ((tag, .string name) :: fields)

def readTag (tag : String) (json : Json) : Option String := do
  let get ← json.variantFields [tag]
  required readString get tag

namespace BuildResult

def toJson : BuildResult → Json
  | .ok => tagged "status" "ok" []
  | .failed error errorType =>
      tagged "status" "failed"
        [("error", .string error), ("error_type", .string errorType)]

def ofJson (json : Json) : Option BuildResult := do
  let status ← readTag "status" json
  if status = "ok" then some .ok
  else if status = "failed" then
    let get ← json.variantFields ["error", "error_type"]
    let error ← required readString get "error"
    let errorType ← required readString get "error_type"
    some (.failed error errorType)
  else none

end BuildResult

namespace Event

/-- The variants that have a message only. -/
def withMsg (name msg : String) : Json :=
  tagged "type" name [("msg", .string msg)]

def toJson : Event → Json
  | .queued position =>
      tagged "type" "queued" [("position", writeUsize position)]
  | .vm msg => withMsg "vm" msg
  | .init msg => withMsg "init" msg
  | .detect msg => withMsg "detect" msg
  | .build msg => withMsg "build" msg
  | .provenance msg => withMsg "provenance" msg
  | .attest msg => withMsg "attest" msg
  | .complete result =>
      tagged "type" "complete" [("result", result.toJson)]
  | .host msg url =>
      tagged "type" "host" (("msg", .string msg) :: skipNone .string "url" url)

def msgVariants : List (String × (String → Event)) :=
  [("vm", .vm), ("init", .init), ("detect", .detect), ("build", .build),
    ("provenance", .provenance), ("attest", .attest)]

def readMsg (json : Json) (make : String → Event) : Option Event := do
  let get ← json.variantFields ["msg"]
  let msg ← required readString get "msg"
  some (make msg)

def ofJson (json : Json) : Option Event := do
  let name ← readTag "type" json
  match msgVariants.find? fun variant => variant.1 = name with
  | some variant => readMsg json variant.2
  | none =>
      if name = "queued" then
        let get ← json.variantFields ["position"]
        let position ← required readUsize get "position"
        some (.queued position)
      else if name = "complete" then
        let get ← json.variantFields ["result"]
        let result ← required BuildResult.ofJson get "result"
        some (.complete result)
      else if name = "host" then
        let get ← json.variantFields ["msg", "url"]
        let msg ← required readString get "msg"
        let url ← nullable readString get "url"
        some (.host msg url)
      else none

/-- Positions are machine words. -/
def Fits : Event → Prop
  | .queued position => position < 2 ^ 64
  | _ => True

theorem readUsize_writeUsize {n : Nat} (hn : n < 2 ^ 64) :
    readUsize (writeUsize n) = some n := by
  have hvalue : (UInt64.ofNat n).toNat = n := UInt64.toNat_ofNat_of_lt' hn
  change readUnsigned (UInt64.ofNat n).toNat = some n
  rw [hvalue, readUnsigned, if_pos (Int.natCast_nonneg n), Int.toNat_natCast]

/-- An event is read as it was written. -/
theorem ofJson_toJson {event : Event} (hfits : event.Fits) :
    ofJson event.toJson = some event := by
  cases event with
  | queued position =>
      have hread : ofJson (queued position).toJson =
          (readUsize (writeUsize position)).map .queued := rfl
      rw [hread, readUsize_writeUsize hfits]
      rfl
  | complete result =>
      cases result with
      | ok => rfl
      | failed error errorType => rfl
  | host msg url => cases url <;> rfl
  | _ => rfl

theorem plain_toJson (event : Event) : Json.Plain 127 event.toJson := by
  cases event with
  | queued position =>
      simp only [toJson, tagged, plain_object_iff, List.forall_mem_cons]
      exact ⟨plain_string _, .integer rfl,
        fun _ h => (List.not_mem_nil h).elim⟩
  | complete result =>
      cases result <;> simp [toJson, tagged, BuildResult.toJson]
  | host msg url => cases url <;> simp [toJson, tagged]
  | _ => simp [toJson, withMsg, tagged]

example : JsonCompact.value (Event.toJson (.build "a\n\"b")) =
    "\x7b\"type\":\"build\",\"msg\":\"a\\n\\\"b\"\x7d".toList := by decide

end Event

/-- What the server's libraries send: the message of a text, and what goes
out when there has been none for a while. -/
structure SseText where
  text : JsonText
  frame : Bytes → Bytes
  keepAlive : Bytes

open SseReader (OnOneLine dataLine colon)
open Lines (newline)

/-- How the format is documented: a text of one line is the data of a
message, keeping alive is a comment, and JSON is written on one line. -/
structure SseLaws (sse : SseText) : Prop where
  render (json : Json) : OnOneLine (sse.text.render json)
  frame {text : Bytes} (htext : OnOneLine text) :
    sse.frame text = dataLine text ++ [newline, newline]
  keepAlive : ∃ comment, OnOneLine comment ∧
    sse.keepAlive = colon :: comment ++ [newline, newline]

def toSse (sse : SseText) (event : Event) : Bytes :=
  sse.frame (sse.text.render event.toJson)

/-- What goes over a connection, one after the other. -/
inductive Sent where
  | emitted (event : Event)
  | keepAlive
deriving DecidableEq

def Sent.bytes (sse : SseText) : Sent → Bytes
  | .emitted event => toSse sse event
  | .keepAlive => sse.keepAlive

def Sent.event? : Sent → Option Event
  | .emitted event => some event
  | .keepAlive => none

/-- The bytes of a connection. -/
def sentBytes (sse : SseText) (sent : List Sent) : Bytes :=
  sent.flatMap (Sent.bytes sse)

def sentEvents (sent : List Sent) : List Event := sent.filterMap Sent.event?

/-- What a client takes a message for. -/
def readMessage (text : JsonText) (message : Bytes) : Option Event :=
  (text.parse message).bind Event.ofJson

section Connection

variable {sse : SseText} {sent : List Sent}

theorem readMessage_render {event : Event} (hfits : event.Fits) :
    readMessage sse.text (sse.text.render event.toJson) = some event := by
  rw [readMessage, sse.text.parse_render _ event.plain_toJson,
    Option.bind_some, Event.ofJson_toJson hfits]

/-- Each event is one message, whatever its texts hold. -/
theorem messages_sentBytes (hlaws : SseLaws sse) (messages : List Bytes) :
    (SseReader.idle messages).read (sentBytes sse sent) =
      SseReader.idle (messages ++
        (sentEvents sent).map fun event => sse.text.render event.toJson) := by
  induction sent generalizing messages with
  | nil => exact congrArg SseReader.idle (List.append_nil messages).symm
  | cons head rest ih =>
      rw [sentBytes, List.flatMap_cons, SseReader.read_append]
      cases head with
      | emitted event =>
          have hhead : (SseReader.idle messages).read (toSse sse event) =
              SseReader.idle
                (messages ++ [sse.text.render event.toJson]) := by
            rw [toSse, hlaws.frame (hlaws.render _),
              SseReader.read_message (hlaws.render _)]
          rw [Sent.bytes, hhead]
          refine (ih _).trans ?_
          rw [List.append_assoc]
          rfl
      | keepAlive =>
          obtain ⟨comment, hcomment, hbytes⟩ := hlaws.keepAlive
          rw [Sent.bytes, hbytes, SseReader.read_comment hcomment]
          exact ih messages

theorem messagesOf_sentBytes (hlaws : SseLaws sse) :
    SseReader.messagesOf (sentBytes sse sent) =
      (sentEvents sent).map fun event => sse.text.render event.toJson :=
  congrArg SseReader.messages (messages_sentBytes hlaws [])

theorem map_readMessage {events : List Event}
    (hfits : ∀ event ∈ events, event.Fits) :
    (events.map fun event => sse.text.render event.toJson).map
      (readMessage sse.text) = events.map some := by
  rw [List.map_map]
  exact List.map_congr_left fun event hevent =>
    readMessage_render (hfits event hevent)

/-- A message is read when all of its bytes have arrived. -/
theorem readMessages_arrived (hlaws : SseLaws sse)
    (hfits : ∀ event ∈ sentEvents sent, event.Fits) {arrived : Bytes}
    (harrived : arrived <+: sentBytes sse sent) :
    ∃ events, events <+: sentEvents sent ∧
      (SseReader.messagesOf arrived).map (readMessage sse.text) =
        events.map some := by
  have hprefix := SseReader.messagesOf_prefix harrived
  rw [messagesOf_sentBytes hlaws] at hprefix
  obtain ⟨events, hevents, heq⟩ := List.prefix_map_iff.mp hprefix
  refine ⟨events, hevents, ?_⟩
  rw [heq]
  exact map_readMessage fun event hevent =>
    hfits event (hevents.subset hevent)

/-- Whatever bytes of a connection have arrived, they are read as the first
of the events that were sent, in order; all of them are when all bytes have
arrived. -/
theorem sentBytes_read (hlaws : SseLaws sse)
    (hfits : ∀ event ∈ sentEvents sent, event.Fits) :
    (SseReader.messagesOf (sentBytes sse sent)).map
        (readMessage sse.text) = (sentEvents sent).map some ∧
      ∀ arrived, arrived <+: sentBytes sse sent →
        ∃ events, events <+: sentEvents sent ∧
          (SseReader.messagesOf arrived).map (readMessage sse.text) =
            events.map some := by
  refine ⟨?_, fun arrived harrived =>
    readMessages_arrived hlaws hfits harrived⟩
  rw [messagesOf_sentBytes hlaws]
  exact map_readMessage hfits

/-- The libraries, on texts of one line. -/
noncomputable def plainSse : SseText where
  text := JsonCompact.text
  frame text := dataLine text ++ [newline, newline]
  keepAlive := [colon, newline, newline]

theorem plainSse_laws : SseLaws plainSse where
  render json := by
    have hcontrol : ∀ b : UInt8, b.toNat < 32 →
        b ∉ JsonCompact.render json := fun b hb hmem =>
      absurd (JsonCompact.le_of_mem_render hmem) (Nat.not_le.mpr hb)
    exact ⟨hcontrol newline (by decide),
      hcontrol Lines.carriageReturn (by decide)⟩
  frame _ := rfl
  keepAlive := ⟨[], by unfold OnOneLine; decide, rfl⟩

/-- A build whose output looks like the end of a message and another one. -/
def forging : List Sent :=
  [.emitted (.build "done\n\ndata: \x7b\"type\":\"complete\"\x7d\n\n"),
    .keepAlive, .emitted (.complete (.failed "exit 1" "Build"))]

theorem sentBytes_read_forging :
    (SseReader.messagesOf (sentBytes plainSse forging)).map
        (readMessage plainSse.text) = (sentEvents forging).map some ∧
      ∀ arrived, arrived <+: sentBytes plainSse forging →
        ∃ events, events <+: sentEvents forging ∧
          (SseReader.messagesOf arrived).map (readMessage plainSse.text) =
            events.map some :=
  sentBytes_read plainSse_laws (List.forall_mem_cons.mpr
    ⟨trivial, List.forall_mem_cons.mpr ⟨trivial, nofun⟩⟩)

end Connection

end Server

end Kettle
