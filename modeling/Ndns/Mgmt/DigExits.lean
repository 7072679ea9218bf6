import Ndns.Clients.NdnsDig
import Ndns.Mgmt.DelegatedResolution

/-!
# Exits of the Query Tool

On zones made with the tools, the exit of `ndns-dig` is told by the finding of the lookup.  A record
and its denial are written and verified alike; what comes without a packet is an error.  A packet that
the controller refuses is one too, so that nothing is written then.
-/

namespace Ndns.Clients

open Ndn Calls Daemon Order.CircularRanges

namespace NdnsDig

/-- A packet has been written, and the verdict on it is the exit code.  A controller that validates
has accepted it before. -/
structure ExitsAfter (accepts : Data → Bool) (notValidate : Bool) (dstFile : String) (dig : NdnsDig)
    (data : Data) : Prop where
  accepted : notValidate = false → accepts data = true
  exitCode : dig.exitCode = some (if accepts data then 0 else 1)
  written : dig.written = output dstFile data

/-- Nothing has been written, and the exit code is that of an error. -/
structure ExitsEmpty (dig : NdnsDig) : Prop where
  exitCode : dig.exitCode = some 1
  written : dig.written = none

/-- The exit that a finding leads to. -/
def Exits [PacketFormat] (accepts : Data → Bool) (notValidate : Bool) (dstFile : String)
    (dig : NdnsDig) : Finding → Prop
  | .record row => ∃ data, PacketFormat.decode row.data = some data ∧
      dig.ExitsAfter accepts notValidate dstFile data
  | .absent authority query => ∃ doe range, Response.wireDecodeDoe doe.content = some range ∧
      (Excludes range query ↔ authority.Convinces query) ∧
      dig.ExitsAfter accepts notValidate dstFile doe
  | .unconvinced | .unanswered => dig.ExitsEmpty

/-- A controller that validates has refused an answer. -/
structure Refused (accepts : Data → Bool) (notValidate : Bool) (dig : NdnsDig) : Prop where
  validates : notValidate = false
  refuses : ∃ packet, accepts packet = false
  exits : dig.ExitsEmpty

/-- A run that has done nothing but what its resolution made it do. -/
def Hosts (notValidate : Bool) (dstFile : String) (dig : NdnsDig) (session : Session) : Prop :=
  ∃ interestLifetime,
    dig = callback ⟨interestLifetime, !notValidate, dstFile, session, false, .resolving, none⟩

variable {dig : NdnsDig} {session : Session} {dstFile : String} {notValidate : Bool}

theorem hosts_ofOptions {dstLabel start : Name} {rrType : Component} {ttl : ℤ}
    (h : ofOptions dstLabel rrType ttl start dstFile notValidate = some dig) :
    Hosts notValidate dstFile dig
      (.begin (.make dstLabel rrType defaultInterestLifetime start.length)) := by
  unfold ofOptions at h
  split_ifs at h
  obtain rfl := Option.some.inj h
  exact ⟨ttl.toNat * 1000, rfl⟩

/-- While the resolution waits for an answer, the run does. -/
theorem callback_of_pending {interestLifetime : ℕ} {validates : Bool} {interest : Interest}
    (h : session.pending = some interest) :
    callback ⟨interestLifetime, validates, dstFile, session, false, .resolving, none⟩ =
      ⟨interestLifetime, validates, dstFile, session, false, .resolving, none⟩ := by
  unfold Session.pending at h
  split at h
  · next hhead => rw [callback, hhead]
  · cases h

/-- A run whose resolution has failed has written nothing. -/
theorem Hosts.exitsEmpty (h : Hosts notValidate dstFile dig session)
    (hfails : session.Fails ∨ ∃ fault, session.Raises fault) : dig.ExitsEmpty := by
  obtain ⟨interestLifetime, rfl⟩ := h
  unfold Session.Fails Session.Raises at hfails
  rcases hfails with hhead | ⟨fault, hhead⟩
  · rw [callback, hhead]
    exact ⟨rfl, rfl⟩
  · rw [callback, hhead]
    exact ⟨rfl, rfl⟩

variable [PacketFormat]

section

variable {Keys : Type} {family : ZoneFamily Keys} {accepts : Data → Bool}

/-- The servers and the validator that the controller of a run has to do with. -/
def intermediate (family : ZoneFamily Keys) (accepts : Data → Bool) (notValidate : Bool) :
    ZoneFamily Keys :=
  family.validatedBy (if !notValidate then some accepts else none)

/-- The run asks what its resolution asks, and passes the answer on. -/
theorem Hosts.step {query : Expressed} (h : Hosts notValidate dstFile dig session)
    (hasks : session.asks = some query)
    (hanswered : ∃ event, (intermediate family accepts notValidate).Answers query event) :
    ∃ question, (family.digging accepts).asks dig = some question ∧
      (∃ reply, (family.digging accepts).answers question reply) ∧
      ∀ reply, (family.digging accepts).answers question reply →
        ∃ event, (intermediate family accepts notValidate).Answers query event ∧
          Hosts notValidate dstFile ((family.digging accepts).receive dig reply)
            (session.handle event) := by
  obtain ⟨interestLifetime, rfl⟩ := h
  rw [callback_of_pending (Session.pending_of_asks hasks)]
  obtain ⟨event, hevent⟩ := hanswered
  refine ⟨.inl (query, !notValidate), ?_, ⟨.inl event, hevent⟩, ?_⟩
  · exact congrArg (Option.map fun query ↦ Sum.inl (query, !notValidate)) hasks
  · intro reply hreply
    cases reply with
    | inl event => exact ⟨event, hreply, interestLifetime, rfl⟩
    | inr accepted => exact hreply.elim

/-- The verdict on the packet ends the run. -/
theorem Hosts.inevitable_verdict {data : Data} (h : Hosts notValidate dstFile dig session)
    (hdelivers : session.Delivers data) (haccepted : notValidate = false → accepts data = true) :
    (family.digging accepts).Inevitable (·.ExitsAfter accepts notValidate dstFile data) dig := by
  obtain ⟨interestLifetime, rfl⟩ := h
  obtain ⟨response, hhead⟩ := hdelivers
  have hcallback :
      callback ⟨interestLifetime, !notValidate, dstFile, session, false, .resolving, none⟩ =
        ⟨interestLifetime, !notValidate, dstFile, session, false, .verifying data,
          output dstFile data⟩ := by
    rw [callback, hhead]
    rfl
  have hasks : (family.digging accepts).asks ⟨interestLifetime, !notValidate, dstFile, session,
      false, .verifying data, output dstFile data⟩ = some (.inr data) := rfl
  rw [hcallback]
  refine .asks hasks ⟨.inr (accepts data), rfl⟩ fun reply hreply ↦ ?_
  cases reply with
  | inl event => exact hreply.elim
  | inr accepted =>
      obtain rfl : accepted = accepts data := hreply
      refine .reached ⟨haccepted, ?_, ?_⟩
      · cases hverdict : accepts data with
        | true => rfl
        | false => rfl
      · cases hverdict : accepts data with
        | true => rfl
        | false => rfl

/-- From the finding of its resolution, a run comes to its exit. -/
theorem Hosts.inevitable_exit {finding : Finding} (h : Hosts notValidate dstFile dig session)
    (hfinds : session.Finds finding)
    (haccepted : ∀ data, session.Delivers data → notValidate = false → accepts data = true) :
    (family.digging accepts).Inevitable (Exits accepts notValidate dstFile · finding) dig := by
  cases finding with
  | record row =>
      obtain ⟨data, hdecode, hdelivers⟩ := hfinds
      exact (h.inevitable_verdict hdelivers (haccepted data hdelivers)).trans
        fun dig hexit ↦ .reached ⟨data, hdecode, hexit⟩
  | absent authority query =>
      obtain ⟨doe, range, hdelivers, hrange, hconvinces⟩ := hfinds
      exact (h.inevitable_verdict hdelivers (haccepted doe hdelivers)).trans
        fun dig hexit ↦ .reached ⟨doe, range, hrange, hconvinces, hexit⟩
  | unconvinced => exact .reached (h.exitsEmpty (Or.inr ⟨_, hfinds⟩))
  | unanswered => exact .reached (h.exitsEmpty (Or.inl hfinds))

end

end NdnsDig

/-! ## Validated answers -/

/-- Nothing is delivered before an answer. -/
theorem Session.not_delivers_begin (controller : IterativeQueryController) (data : Data) :
    ¬ (Session.begin controller).Delivers data := by
  rintro ⟨response, hhead⟩
  have hstart : controller.start.2 = .ok (.succeed data response) := Option.some.inj hhead
  unfold IterativeQueryController.start at hstart
  split_ifs at hstart
  · exact IterativeQueryController.expressLatest_ne_succeed hstart
  · exact IterativeQueryController.expressLatest_ne_succeed hstart

namespace ZoneFamily

variable [PacketFormat] {Keys : Type} {family : ZoneFamily Keys} {query : Expressed}

/-- Every packet is delivered with the verdict of the validator. -/
theorem Answers.eq_verdict {packet : Data} {accepted : Bool}
    (h : family.Answers query (.data packet accepted)) : accepted = family.verdict packet := by
  unfold Answers at h
  cases hauthority : family.authority query.question.zone with
  | none =>
      rw [hauthority] at h
      cases h
  | some authority =>
      rw [hauthority] at h
      obtain ⟨keys, hevent⟩ := h
      unfold replyEvent at hevent
      split at hevent
      · split_ifs at hevent
        cases hevent
        rfl
      · cases hevent

/-- What an answer makes a resolution deliver has been accepted. -/
theorem Answers.accepts_of_delivers {event : Event} (h : family.Answers query event)
    {session : Session} {data : Data} (hdelivers : (session.handle event).Delivers data) :
    family.accepts data = true := by
  obtain ⟨response, hhead⟩ := hdelivers
  have hreact : (session.react event).2 = .ok (.succeed data response) := Option.some.inj hhead
  cases event with
  | networkNack => cases hreact
  | timeout => cases hreact
  | data packet accepted =>
      obtain rfl := h.eq_verdict
      change (session.controller.onData packet (family.verdict packet)).2 = _ at hreact
      unfold IterativeQueryController.onData verdict at hreact
      cases hunwrap : IterativeQueryController.unwrap packet with
      | none =>
          rw [hunwrap] at hreact
          cases hreact
      | some validated =>
          obtain ⟨inner, contentType⟩ := validated
          simp only [hunwrap] at hreact
          split_ifs at hreact with haccepts
          · unfold IterativeQueryController.onDataValidated at hreact
            cases hadvance : session.controller.advance inner contentType with
            | error fault =>
                rw [hadvance] at hreact
                cases hreact
            | ok next =>
                rw [hadvance] at hreact
                obtain ⟨-, -, rfl, -⟩ :=
                  IterativeQueryController.conclude_succeed (Prod.ext rfl hreact)
                exact haccepts
          · cases hreact

/-- With another validator, a reply is the same event, or one that delivers a refused packet. -/
theorem replyEvent_validatedBy (validator : Option (Data → Bool))
    (hall : ∀ packet, family.accepts packet = true) (reply : Except Fault (Option Data))
    (interest : Interest) :
    (family.validatedBy validator).replyEvent reply interest = family.replyEvent reply interest ∨
      ∃ packet inner contentType,
        (family.validatedBy validator).replyEvent reply interest = .data packet false ∧
          IterativeQueryController.unwrap packet = some (inner, contentType) ∧
          (family.validatedBy validator).accepts inner = false := by
  unfold replyEvent
  split
  · next answer =>
      split_ifs
      · cases hunwrap : IterativeQueryController.unwrap answer with
        | none => simp [verdict, hunwrap]
        | some validated =>
            obtain ⟨inner, contentType⟩ := validated
            cases haccepts : (family.validatedBy validator).accepts inner with
            | true => exact Or.inl (by simp [verdict, hunwrap, haccepts, hall])
            | false =>
                exact Or.inr ⟨answer, inner, contentType, by simp [verdict, hunwrap, haccepts],
                  hunwrap, haccepts⟩
      · exact Or.inl rfl
  · exact Or.inl rfl

/-- With another validator, an answer of the server is the same or makes the resolution fail. -/
theorem answers_validatedBy {validator : Option (Data → Bool)}
    (hall : ∀ packet, family.accepts packet = true) {event : Event}
    (h : (family.validatedBy validator).Answers query event) (session : Session) :
    family.Answers query event ∨ (session.handle event).Fails ∧
      ∃ packet, (family.validatedBy validator).accepts packet = false := by
  unfold Answers at h ⊢
  cases hauthority : family.authority query.question.zone with
  | none =>
      rw [show (family.validatedBy validator).authority = family.authority from rfl, hauthority] at h
      exact Or.inl h
  | some authority =>
      rw [show (family.validatedBy validator).authority = family.authority from rfl, hauthority] at h
      obtain ⟨keys, rfl⟩ := h
      rcases replyEvent_validatedBy validator hall ((authority.server.answerQuery
        query.interest).run (World.handle family.services) ⟨authority.db, keys⟩).1
        query.interest with hsame | ⟨packet, inner, contentType, hrefused, hunwrap, hinner⟩
      · exact Or.inl ⟨keys, hsame⟩
      · refine Or.inr ⟨?_, inner, hinner⟩
        have hreact : session.react (.data packet false) = (session.controller, .ok .fail) := by
          rw [Session.react, IterativeQueryController.onData, hunwrap]
          rfl
        change some (session.react _).2 = _
        exact congrArg (fun result ↦ some result.2) (hrefused ▸ hreact)

/-- The server answers whoever validates. -/
theorem exists_answers_validatedBy (validator : Option (Data → Bool))
    (h : ∃ event, family.Answers query event) :
    ∃ event, (family.validatedBy validator).Answers query event := by
  obtain ⟨event, h⟩ := h
  unfold Answers at h ⊢
  cases hauthority : family.authority query.question.zone with
  | none => exact ⟨.timeout, by rw [show (family.validatedBy validator).authority =
      family.authority from rfl, hauthority]⟩
  | some authority =>
      rw [hauthority] at h
      obtain ⟨keys, -⟩ := h
      rw [show (family.validatedBy validator).authority = family.authority from rfl, hauthority]
      exact ⟨_, keys, rfl⟩

/-- With another validator a resolution comes to the same end, or it fails because a packet is
refused; and what it delivers has been accepted. -/
theorem inevitable_validatedBy (validator : Option (Data → Bool))
    (hall : ∀ packet, family.accepts packet = true) {goal : Session → Prop}
    {controller : IterativeQueryController}
    (h : family.inquiry.Inevitable goal (.begin controller)) :
    (family.validatedBy validator).inquiry.Inevitable (fun session ↦
      (goal session ∨ session.Fails ∧
        ∃ packet, (family.validatedBy validator).accepts packet = false) ∧
      ∀ data, session.Delivers data → (family.validatedBy validator).accepts data = true)
      (.begin controller) := by
  have hends : (family.validatedBy validator).inquiry.Inevitable (fun session ↦ goal session ∨
      session.Fails ∧ ∃ packet, (family.validatedBy validator).accepts packet = false)
      (.begin controller) := by
    refine Inquiry.Inevitable.or_of_answers ?_ ?_ ?_ ?_ h
    · rfl
    · rfl
    · exact fun query hanswered ↦ exists_answers_validatedBy validator hanswered
    · exact fun session query event hanswer ↦ answers_validatedBy hall hanswer session
  refine hends.and_received (fun data hdelivers ↦ ?_)
    fun session query event hanswer data hdelivers ↦ Answers.accepts_of_delivers hanswer hdelivers
  exact absurd hdelivers (Session.not_delivers_begin controller data)

end ZoneFamily

section Examples

open LocalServices

attribute [local instance] ndnPacketFormat

/-- The TXT record of /n/a/w, dug from /n with a lifetime of one second. -/
def digText (notValidate : Bool) : Option NdnsDig :=
  NdnsDig.ofOptions [letter 110, letter 97, letter 119] Label.txtRrType 1 [letter 110] "-" notValidate

end Examples

end Ndns.Clients
