import Ndns.Calls.SharedCache

/-!
# Inevitable Ends

A client comes to a goal inevitably when it always gets an answer and every answer brings it there.
Goals can be reached one after the other, and wherever a direct run stops, the goal has been
reached.  Behind a sound cache the runs are direct ones, and every direct run is possible.
-/

namespace Ndns.Calls

namespace Inquiry

variable {Client Query Answer : Type} {inquiry : Inquiry Client Query Answer}
  {goal goal' : Client → Prop} {client start : Client}

/-- Whatever the source answers, the client comes to a goal. -/
inductive Inevitable (inquiry : Inquiry Client Query Answer) (goal : Client → Prop) : Client → Prop
  | reached {client : Client} (h : goal client) : Inevitable inquiry goal client
  | asks {client : Client} {query : Query} (hasks : inquiry.asks client = some query)
      (hanswered : ∃ answer, inquiry.answers query answer)
      (hrest : ∀ answer, inquiry.answers query answer →
        Inevitable inquiry goal (inquiry.receive client answer)) : Inevitable inquiry goal client

/-- A goal from which another one is inevitable. -/
theorem Inevitable.trans (h : inquiry.Inevitable goal client)
    (hnext : ∀ client, goal client → inquiry.Inevitable goal' client) :
    inquiry.Inevitable goal' client := by
  induction h with
  | reached hgoal => exact hnext _ hgoal
  | asks hasks hanswered _ ih => exact .asks hasks hanswered ih

/-- What is inevitable is possible. -/
theorem Inevitable.exists_direct (h : inquiry.Inevitable goal client) {asked : List Query}
    (hdirect : inquiry.Direct start asked client) :
    ∃ asked client, inquiry.Direct start asked client ∧ goal client := by
  induction h generalizing asked with
  | reached hgoal => exact ⟨asked, _, hdirect, hgoal⟩
  | asks hasks hanswered _ ih =>
      obtain ⟨answer, hanswer⟩ := hanswered
      exact ih answer hanswer (hdirect.answer hasks hanswer)

/-- Along a direct run the goal stays inevitable. -/
theorem Inevitable.direct {asked : List Query} (h : inquiry.Inevitable goal start)
    (hend : ∀ client, goal client → inquiry.asks client = none)
    (hdirect : inquiry.Direct start asked client) : inquiry.Inevitable goal client := by
  induction hdirect with
  | start => exact h
  | @answer asked client query answer _ hasks hanswer ih =>
      cases ih with
      | reached hgoal => exact absurd (hasks.symm.trans (hend client hgoal)) (Option.some_ne_none _)
      | asks hasks' _ hrest =>
          obtain rfl := Option.some.inj (hasks.symm.trans hasks')
          exact hrest answer hanswer

/-- A direct run that has come to its end has come to the goal. -/
theorem Inevitable.goal_of_direct {asked : List Query} (h : inquiry.Inevitable goal start)
    (hend : ∀ client, goal client → inquiry.asks client = none)
    (hdirect : inquiry.Direct start asked client) (hstops : inquiry.asks client = none) :
    goal client := by
  cases h.direct hend hdirect with
  | reached hgoal => exact hgoal
  | asks hasks _ _ => exact absurd (hasks.symm.trans hstops) (Option.some_ne_none _)

/-- What a client comes to inevitably, it comes to with every source that gives it the same
answers. -/
theorem Inevitable.congr {inquiry' : Inquiry Client Query Answer} (hasks : inquiry'.asks = inquiry.asks)
    (hreceive : inquiry'.receive = inquiry.receive)
    (hsame : ∀ {asked client query}, inquiry.Direct start asked client →
      inquiry.asks client = some query →
        ∀ answer, inquiry'.answers query answer ↔ inquiry.answers query answer)
    (h : inquiry.Inevitable goal client) {asked : List Query}
    (hdirect : inquiry.Direct start asked client) : inquiry'.Inevitable goal client := by
  induction h generalizing asked with
  | reached hgoal => exact .reached hgoal
  | @asks client query hquery hanswered _ ih =>
      have hanswers := hsame hdirect hquery
      obtain ⟨answer, hanswer⟩ := hanswered
      have hquery' : inquiry'.asks client = some query := by rw [hasks, hquery]
      refine .asks hquery' ⟨answer, (hanswers answer).mpr hanswer⟩ fun answer hanswer ↦ ?_
      rw [hreceive]
      have hgiven := (hanswers answer).mp hanswer
      exact ih answer hgiven (hdirect.answer hquery hgiven)

/-- With a source that gives other answers too, which all bring about another goal, one of the goals
is inevitable. -/
theorem Inevitable.or_of_answers {inquiry' : Inquiry Client Query Answer}
    (hasks : inquiry'.asks = inquiry.asks) (hreceive : inquiry'.receive = inquiry.receive)
    (hanswered : ∀ query, (∃ answer, inquiry.answers query answer) →
      ∃ answer, inquiry'.answers query answer)
    (hother : ∀ client query answer, inquiry'.answers query answer →
      inquiry.answers query answer ∨ goal' (inquiry.receive client answer))
    (h : inquiry.Inevitable goal client) :
    inquiry'.Inevitable (fun client ↦ goal client ∨ goal' client) client := by
  induction h with
  | reached hgoal => exact .reached (Or.inl hgoal)
  | @asks client query hquery hgiven _ ih =>
      have hquery' : inquiry'.asks client = some query := by rw [hasks, hquery]
      refine .asks hquery' (hanswered query hgiven) fun answer hanswer ↦ ?_
      rw [hreceive]
      rcases hother client query answer hanswer with hsame | hgoal
      · exact ih answer hsame
      · exact .reached (Or.inr hgoal)

/-- What every answer brings about holds at the goal. -/
theorem Inevitable.and_received {always : Client → Prop} (hstart : always client)
    (hanswers : ∀ client query answer, inquiry.answers query answer →
      always (inquiry.receive client answer))
    (h : inquiry.Inevitable goal client) :
    inquiry.Inevitable (fun client ↦ goal client ∧ always client) client := by
  induction h with
  | reached hgoal => exact .reached ⟨hgoal, hstart⟩
  | asks hasks hanswered _ ih =>
      exact .asks hasks hanswered fun answer hanswer ↦
        ih answer hanswer (hanswers _ _ answer hanswer)

/-- A client that does its work through another one comes to where that one has come to its goal. -/
theorem Inevitable.through {Host Question Reply : Type} {hosting : Inquiry Host Question Reply}
    {hosts : Host → Client → Prop}
    (hstep : ∀ {host client query}, hosts host client → inquiry.asks client = some query →
      (∃ answer, inquiry.answers query answer) →
        ∃ question, hosting.asks host = some question ∧
          (∃ reply, hosting.answers question reply) ∧
          ∀ reply, hosting.answers question reply → ∃ answer, inquiry.answers query answer ∧
            hosts (hosting.receive host reply) (inquiry.receive client answer))
    (h : inquiry.Inevitable goal client) {host : Host} (hhosts : hosts host client) :
    hosting.Inevitable (fun host ↦ ∃ client, hosts host client ∧ goal client) host := by
  induction h generalizing host with
  | reached hgoal => exact .reached ⟨_, hhosts, hgoal⟩
  | asks hasks hanswered _ ih =>
      obtain ⟨question, hquestion, hreplied, hreply⟩ := hstep hhosts hasks hanswered
      refine .asks hquestion hreplied fun reply hgiven ↦ ?_
      obtain ⟨answer, hanswer, hhosts'⟩ := hreply reply hgiven
      exact ih answer hanswer hhosts'

/-! ## Behind a cache -/

section

variable {Entry : Type} {caching : Caching Query Answer Entry} {allowed : Query → Entry → Prop}
  {shared : SharedCache Client Query Entry} {visit : Visit Client Query}

theorem Behind.kept (hsound : inquiry.Sound caching allowed)
    (h : inquiry.Behind caching allowed shared) : inquiry.Kept caching shared := by
  induction h with
  | refl =>
      refine ⟨?_, ?_, ?_⟩
      · simp
      · simp
      · simp
  | tail _ hstep ih => exact hstep.kept hsound ih

/-- A client goes on like a direct run when the cache loses every answer at once, and the others
wait. -/
theorem Behind.proceed {entries : List Entry} {before after : List (Visit Client Query)}
    {asked : List Query} (h : inquiry.Behind caching allowed ⟨entries, before ++ visit :: after⟩)
    (hsent : visit.sent = false) (hdirect : inquiry.Direct visit.client asked client) :
    inquiry.Behind caching allowed
      ⟨[], before ++ ⟨visit.start, asked ++ visit.asked, client, false⟩ :: after⟩ := by
  induction hdirect with
  | start =>
      rw [List.nil_append, ← hsent]
      exact h.tail (.evict (List.nil_subset _))
  | @answer asked client query answer _ hasks hanswer ih =>
      have hfetched := @Behind.fetch _ _ _ _ inquiry caching allowed [] before after _ _ _ ih rfl hasks
        (by simp) hanswer
      exact hfetched.tail (.evict (List.nil_subset _))

end

end Inquiry

end Ndns.Calls
