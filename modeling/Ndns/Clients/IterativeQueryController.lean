import Ndns.Clients.Response
import Mathlib.Logic.Relation

/-!
# The Iterative Query Controller

The resolver asks for the NS record of a growing part of the requested label until it learns that
there is none, and then for the record itself.  `onData` and `onDataValidated` are translated as
functions from a controller and a packet to the next controller and what the handler does: express
an Interest, call back, or throw.

A packet served from the cache of NS records is handled by the same `onData` as one from the
network, so which of the two answers an Interest is left to the environment.
-/

namespace Ndns.Clients

open Ndn

/-- `QueryStep`. -/
inductive QueryStep where
  | queryNs
  | queryRr
  | answerStub
  | abort
deriving DecidableEq

structure IterativeQueryController where
  dstLabel : Name
  rrType : Component
  interestLifetime : ℕ
  step : QueryStep
  nFinishedComps : ℕ
  nTryComps : ℕ
  /-- The last LINK packet that had delegations. -/
  lastLink : Option Data
  lastLabelType : Name

/-- The exceptions that can escape from a handler. -/
inductive ControllerFault where
  | outOfBounds
  | malformed
  | unconvincingDenial
  | unexpectedState
deriving DecidableEq

/-- What a handler does last. -/
inductive Action where
  | express (interest : Interest)
  | succeed (data : Data) (response : Response)
  | fail
deriving DecidableEq

abbrev Outcome := Except ControllerFault Action

namespace IterativeQueryController

/-- A new controller; the start index is what `setStartComponentIndex` sets. -/
def make (dstLabel : Name) (rrType : Component) (interestLifetime startIndex : ℕ) :
    IterativeQueryController :=
  ⟨dstLabel, rrType, interestLifetime, .queryNs, startIndex, 1, none, []⟩

/-- The zone whose server is asked. -/
def zone (controller : IterativeQueryController) : Name :=
  controller.dstLabel.getPrefix controller.nFinishedComps

/-- `hasEnded`. -/
def hasEnded (controller : IterativeQueryController) : Bool :=
  controller.step ≠ .queryNs ∧ controller.step ≠ .queryRr

/-! ## Interests -/

/-- The label that is asked for in the current step. -/
def queryLabel (controller : IterativeQueryController) : Name :=
  match controller.step with
  | .queryNs => controller.dstLabel.getSubName controller.nFinishedComps controller.nTryComps
  | _ => controller.dstLabel.drop controller.nFinishedComps

/-- The type that is asked for in the current step. -/
def queryType (controller : IterativeQueryController) : Component :=
  match controller.step with
  | .queryNs => Label.nsRrType
  | _ => controller.rrType

/-- The forwarding hint taken from the last LINK. -/
def forwardingHint (controller : IterativeQueryController) : Option (List Name) :=
  match controller.lastLink with
  | none => some []
  | some link => linkDelegations link

/-- `makeLatestInterest`. -/
def makeLatestInterest (controller : IterativeQueryController) :
    Except ControllerFault (Interest × IterativeQueryController) :=
  match controller.forwardingHint with
  | none => .error .malformed
  | some delegations =>
      if controller.hasEnded then .error .unexpectedState
      else
        let query : Query :=
          { zone := controller.zone
            queryType := Label.ndnsIterativeQuery
            rrLabel := controller.queryLabel
            rrType := controller.queryType
            interestLifetime := controller.interestLifetime
            forwardingHint := delegations }
        .ok (query.toInterest,
          { controller with lastLabelType := controller.queryLabel ++ [controller.queryType] })

/-- Make the next Interest and send it. -/
def expressLatest (controller : IterativeQueryController) : IterativeQueryController × Outcome :=
  match controller.makeLatestInterest with
  | .ok (interest, controller) => (controller, .ok (.express interest))
  | .error fault => (controller, .error fault)

/-- `start`. -/
def start (controller : IterativeQueryController) : IterativeQueryController × Outcome :=
  if controller.dstLabel.length = controller.nFinishedComps then
    { controller with step := .queryRr }.expressLatest
  else controller.expressLatest

/-! ## Data -/

/-- `isAbsentByDoe` on the range of a denial record. -/
def isAbsentByRange (lastLabelType : Name) (range : Name × Name) : Bool :=
  (range.1 < lastLabelType ∧ lastLabelType < range.2) ∨
    (range.2 < range.1 ∧ (lastLabelType < range.1 ∨ range.2 < lastLabelType))

/-- `isAbsentByDoe`; decoding the range can throw. -/
def isAbsentByDoe (controller : IterativeQueryController) (data : Data) :
    Except ControllerFault Bool :=
  match Response.wireDecodeDoe data.content with
  | none => .error .malformed
  | some range => .ok (isAbsentByRange controller.lastLabelType range)

/-- A denial in step QUERY_NS. -/
def onNsDoe (controller : IterativeQueryController) (data : Data) :
    Except ControllerFault IterativeQueryController :=
  match controller.isAbsentByDoe data with
  | .error fault => .error fault
  | .ok true => .ok { controller with step := .queryRr }
  | .ok false => .error .unconvincingDenial

/-- A delegation in step QUERY_NS. -/
def onNsLink (controller : IterativeQueryController) (data : Data) :
    Except ControllerFault IterativeQueryController :=
  match linkDelegations data with
  | none => .error .malformed
  | some delegations =>
      let lastLink := if delegations.isEmpty then none else some data
      if controller.nFinishedComps + controller.nTryComps = controller.dstLabel.length ∧
          controller.rrType = Label.nsRrType then
        .ok { controller with lastLink := lastLink, step := .answerStub }
      else
        .ok { controller with
          lastLink := lastLink
          nFinishedComps := controller.nFinishedComps + controller.nTryComps
          nTryComps := 1 }

/-- An answer in step QUERY_NS, by the content type of the packet. -/
def onNsData (controller : IterativeQueryController) (data : Data) :
    NdnsContentType → Except ControllerFault IterativeQueryController
  | .doe => controller.onNsDoe data
  | .link => controller.onNsLink data
  | .auth => .ok { controller with nTryComps := controller.nTryComps + 1 }
  -- an unexpected content type is only logged, and the same Interest is sent again
  | _ => .ok controller

/-- The end of step QUERY_NS, when the label is used up. -/
def checkLabelEnd (controller : IterativeQueryController) : IterativeQueryController :=
  if controller.dstLabel.length < controller.nFinishedComps + controller.nTryComps then
    { controller with
      step := if controller.rrType = Label.nsRrType then .answerStub else .queryRr }
  else controller

/-- The `switch` of `onDataValidated`. -/
def advance (controller : IterativeQueryController) (data : Data) (contentType : NdnsContentType) :
    Except ControllerFault IterativeQueryController :=
  match controller.step with
  | .queryNs => (controller.onNsData data contentType).map checkLabelEnd
  | .queryRr => .ok { controller with step := .answerStub }
  | _ => .ok { controller with step := .abort }

/-- `parseFinalResponse`; the flag of `fromData` is dropped. -/
def parseFinalResponse (controller : IterativeQueryController) (data : Data) :
    Except ControllerFault Response :=
  match Response.default.fromData controller.zone data with
  | .ok (_, response) => .ok response
  | .error .outOfBounds => .error .outOfBounds
  | .error .malformed => .error .malformed

/-- What follows the `switch` of `onDataValidated`. -/
def conclude (controller : IterativeQueryController) (data : Data) :
    IterativeQueryController × Outcome :=
  match controller.step with
  | .queryNs | .queryRr => controller.expressLatest
  | .answerStub =>
      (controller, (controller.parseFinalResponse data).map fun response ↦ .succeed data response)
  | .abort => (controller, .ok .fail)

/-- `onDataValidated`. -/
def onDataValidated (controller : IterativeQueryController) (data : Data)
    (contentType : NdnsContentType) : IterativeQueryController × Outcome :=
  match controller.advance data contentType with
  | .ok next => next.conclude data
  | .error fault => (controller, .error fault)

variable [PacketFormat]

/-- The packet to validate and its content type: the one inside an `NDNS_NACK` counts as a
denial, whatever it says about itself. -/
def unwrap (data : Data) : Option (Data × NdnsContentType) :=
  if NdnsContentType.ofCode data.contentType = .nack then
    ((blockFromValue data.content).bind PacketFormat.decode).map fun doe ↦ (doe, .doe)
  else some (data, .ofCode data.contentType)

/-- `onData`, with the verdict of the validator; without a validator every packet is accepted. -/
def onData (controller : IterativeQueryController) (data : Data) (accepted : Bool) :
    IterativeQueryController × Outcome :=
  match unwrap data with
  | none => (controller, .error .malformed)
  | some (toBeValidated, contentType) =>
      if accepted then controller.onDataValidated toBeValidated contentType
      else (controller, .ok .fail)

end IterativeQueryController

/-! ## Runs -/

/-- What can happen to an expressed Interest. -/
inductive Event where
  | data (packet : Data) (accepted : Bool)
  | networkNack
  | timeout

/-- Data is only delivered to an Interest it matches. -/
def Event.answers (event : Event) (interest : Interest) : Prop :=
  match event with
  | .data packet _ => packet.matches interest
  | .networkNack | .timeout => True

/-- A resolution: its controller, and what its handlers have done so far, latest first. -/
structure Session where
  controller : IterativeQueryController
  outcomes : List Outcome

namespace Session

/-- A session right after `start`. -/
def begin (controller : IterativeQueryController) : Session :=
  ⟨controller.start.1, [controller.start.2]⟩

/-- The Interest that waits for an answer: the one the last handler expressed. -/
def pending (session : Session) : Option Interest :=
  match session.outcomes.head? with
  | some (.ok (.express interest)) => some interest
  | _ => none

variable [PacketFormat]

/-- The handler of an event; a network Nack is handled like a timeout. -/
def react (session : Session) : Event → IterativeQueryController × Outcome
  | .data packet accepted => session.controller.onData packet accepted
  | .networkNack | .timeout => (session.controller, .ok .fail)

/-- The session after an event. -/
def handle (session : Session) (event : Event) : Session :=
  ⟨(session.react event).1, (session.react event).2 :: session.outcomes⟩

/-- One event on the Interest that waits. -/
inductive Step : Session → Session → Prop
  | event {session : Session} {interest : Interest} {event : Event}
      (hpending : session.pending = some interest) (hanswers : event.answers interest) :
      Step session (session.handle event)

/-- The sessions some run of events leads to, from any start index. -/
def Reachable (dstLabel : Name) (rrType : Component) (session : Session) : Prop :=
  ∃ interestLifetime startIndex,
    Relation.ReflTransGen Step
      (begin (.make dstLabel rrType interestLifetime startIndex)) session

end Session

end Ndns.Clients
