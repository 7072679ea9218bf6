import Mathlib.Logic.Relation
import Mathlib.Data.List.Basic
import Mathlib.Data.Nat.Basic

/-!
# Clients behind a Shared Cache

Clients put one query after another to a source, and a cache they share may answer in its place.
A client is followed together with the queries it has put.  When every answer the cache serves is
one the source may give to the same query, each client behind the cache takes a direct run; and
when different answers to a query make no difference to a client, it is the only one.
-/

namespace Ndns.Calls

/-- Clients that put queries, and the answers a source may give. -/
structure Inquiry (Client Query Answer : Type) where
  starts : Client → Prop
  asks : Client → Option Query
  receive : Client → Answer → Client
  answers : Query → Answer → Prop

/-- What a cache does for its clients: which of its entries a lookup may return, the answer an
entry stands for, and the entry that is made of an answer. -/
structure Caching (Query Answer Entry : Type) where
  finds : Query → Entry → Prop
  serves : Entry → Answer
  keeps : Query → Answer → Option Entry

/-- A client behind the cache: what it was at the start, the queries it has put since, latest first,
and whether the next one has been sent to the source. -/
structure Visit (Client Query : Type) where
  start : Client
  asked : List Query
  client : Client
  sent : Bool

/-- The cache and the clients that share it. -/
structure SharedCache (Client Query Entry : Type) where
  entries : List Entry
  visits : List (Visit Client Query)

variable {Client Query Answer Entry : Type}

/-- The visit of a client that receives the answer to its query. -/
def Visit.receive (inquiry : Inquiry Client Query Answer) (visit : Visit Client Query)
    (query : Query) (answer : Answer) : Visit Client Query :=
  ⟨visit.start, query :: visit.asked, inquiry.receive visit.client answer, false⟩

namespace Inquiry

/-! ## Direct runs -/

/-- What becomes of a client when the source answers, with the queries it has put, latest first. -/
inductive Direct (inquiry : Inquiry Client Query Answer) (start : Client) :
    List Query → Client → Prop
  | start : Direct inquiry start [] start
  | answer {asked : List Query} {client : Client} {query : Query} {answer : Answer}
      (hdirect : Direct inquiry start asked client) (hasks : inquiry.asks client = some query)
      (hanswer : inquiry.answers query answer) :
      Direct inquiry start (query :: asked) (inquiry.receive client answer)

/-- A client on a direct run. -/
def Reaches (inquiry : Inquiry Client Query Answer) (client : Client) : Prop :=
  ∃ start asked, inquiry.starts start ∧ inquiry.Direct start asked client

/-- Different answers of the source to a query make no difference. -/
def Determinate (inquiry : Inquiry Client Query Answer) : Prop :=
  ∀ ⦃client query answer answer'⦄, inquiry.Reaches client → inquiry.asks client = some query →
    inquiry.answers query answer → inquiry.answers query answer' →
      inquiry.receive client answer = inquiry.receive client answer'

variable {inquiry : Inquiry Client Query Answer} {start client client' : Client}
  {asked asked' : List Query}

/-- A client that has put a query was asking before. -/
theorem Direct.cases_cons {query : Query} (h : inquiry.Direct start (query :: asked) client) :
    ∃ earlier answer, inquiry.Direct start asked earlier ∧ inquiry.asks earlier = some query ∧
      inquiry.answers query answer ∧ client = inquiry.receive earlier answer := by
  cases h with
  | answer hdirect hasks hanswer => exact ⟨_, _, hdirect, hasks, hanswer, rfl⟩

/-- A direct run is determined by the number of queries. -/
theorem Direct.eq_of_length (hdeterminate : inquiry.Determinate) (hstarts : inquiry.starts start)
    (h : inquiry.Direct start asked client) (h' : inquiry.Direct start asked' client')
    (hlength : asked'.length = asked.length) : asked' = asked ∧ client' = client := by
  induction h generalizing asked' client' with
  | start =>
      obtain rfl := List.length_eq_zero_iff.mp hlength
      cases h'
      exact ⟨rfl, rfl⟩
  | answer hdirect hasks hanswer ih =>
      obtain ⟨query', rest, rfl⟩ := List.exists_cons_of_length_eq_add_one hlength
      obtain ⟨earlier, answer', hdirect', hasks', hanswer', rfl⟩ := h'.cases_cons
      obtain ⟨rfl, rfl⟩ := ih hdirect' (Nat.succ.inj hlength)
      obtain rfl := Option.some.inj (hasks'.symm.trans hasks)
      exact ⟨rfl, hdeterminate ⟨start, _, hstarts, hdirect'⟩ hasks hanswer' hanswer⟩

/-- A longer direct run leads through a client that still asks. -/
theorem Direct.asks_of_length_lt (hdeterminate : inquiry.Determinate)
    (hstarts : inquiry.starts start) (h : inquiry.Direct start asked client)
    (h' : inquiry.Direct start asked' client') (hlength : asked.length < asked'.length) :
    inquiry.asks client ≠ none := by
  induction h' with
  | start => exact absurd hlength (Nat.not_lt_zero _)
  | answer hdirect hasks hanswer ih =>
      rcases Nat.lt_succ_iff_lt_or_eq.mp hlength with hshorter | hsame
      · exact ih hshorter
      · obtain ⟨-, rfl⟩ := h.eq_of_length hdeterminate hstarts hdirect hsame.symm
        rw [hasks]
        exact Option.some_ne_none _

/-- Two direct runs of the same number of queries, or which both have come to their end, are the
same. -/
theorem Direct.unique (hdeterminate : inquiry.Determinate) (hstarts : inquiry.starts start)
    (h : inquiry.Direct start asked client) (h' : inquiry.Direct start asked' client')
    (hend : asked'.length = asked.length ∨
      inquiry.asks client = none ∧ inquiry.asks client' = none) :
    asked' = asked ∧ client' = client := by
  rcases hend with hlength | ⟨hend, hend'⟩
  · exact h.eq_of_length hdeterminate hstarts h' hlength
  · rcases Nat.lt_trichotomy asked.length asked'.length with hlt | hlength | hlt
    · exact absurd hend (h.asks_of_length_lt hdeterminate hstarts h' hlt)
    · exact h.eq_of_length hdeterminate hstarts h' hlength.symm
    · exact absurd hend' (h'.asks_of_length_lt hdeterminate hstarts h hlt)

/-! ## Behind the cache -/

variable (inquiry) (caching : Caching Query Answer Entry)

/-- What happens behind the cache.  A query is looked up first, and sent when nothing is found; the
lookups that may succeed can be restricted, to a part of those that find an entry. -/
inductive Step (allowed : Query → Entry → Prop) :
    SharedCache Client Query Entry → SharedCache Client Query Entry → Prop
  | start {entries : List Entry} {visits : List (Visit Client Query)} {client : Client}
      (hstarts : inquiry.starts client) :
      Step allowed ⟨entries, visits⟩ ⟨entries, ⟨client, [], client, false⟩ :: visits⟩
  | hit {entries : List Entry} {before after : List (Visit Client Query)}
      {visit : Visit Client Query} {query : Query} {entry : Entry} (hsent : visit.sent = false)
      (hasks : inquiry.asks visit.client = some query) (hentry : entry ∈ entries)
      (hfinds : caching.finds query entry) (hallowed : allowed query entry) :
      Step allowed ⟨entries, before ++ visit :: after⟩
        ⟨(caching.keeps query (caching.serves entry)).toList ++ entries,
          before ++ visit.receive inquiry query (caching.serves entry) :: after⟩
  | miss {entries : List Entry} {before after : List (Visit Client Query)}
      {visit : Visit Client Query} {query : Query} (hsent : visit.sent = false)
      (hasks : inquiry.asks visit.client = some query)
      (hnone : ∀ entry ∈ entries, ¬ caching.finds query entry) :
      Step allowed ⟨entries, before ++ visit :: after⟩
        ⟨entries, before ++ { visit with sent := true } :: after⟩
  | answer {entries : List Entry} {before after : List (Visit Client Query)}
      {visit : Visit Client Query} {query : Query} {answer : Answer} (hsent : visit.sent = true)
      (hasks : inquiry.asks visit.client = some query) (hanswer : inquiry.answers query answer) :
      Step allowed ⟨entries, before ++ visit :: after⟩
        ⟨(caching.keeps query answer).toList ++ entries,
          before ++ visit.receive inquiry query answer :: after⟩
  | evict {entries kept : List Entry} {visits : List (Visit Client Query)} (hkept : kept ⊆ entries) :
      Step allowed ⟨entries, visits⟩ ⟨kept, visits⟩

/-- The states behind a cache that was empty at first. -/
def Behind (allowed : Query → Entry → Prop) (shared : SharedCache Client Query Entry) : Prop :=
  Relation.ReflTransGen (Step inquiry caching allowed) ⟨[], []⟩ shared

/-- An entry that was made of an answer of the source to a query some client put. -/
def Genuine (entry : Entry) : Prop :=
  ∃ client query answer, inquiry.Reaches client ∧ inquiry.asks client = some query ∧
    inquiry.answers query answer ∧ caching.keeps query answer = some entry

/-- The lookups that are allowed find what the source may answer. -/
def Sound (allowed : Query → Entry → Prop) : Prop :=
  ∀ ⦃client query entry⦄, inquiry.Reaches client → inquiry.asks client = some query →
    inquiry.Genuine caching entry → caching.finds query entry → allowed query entry →
      inquiry.answers query (caching.serves entry)

/-- The visit goes like a direct run, and like every direct run of as many queries or which has
come to its end as well. -/
structure Transparent (visit : Visit Client Query) : Prop where
  direct : inquiry.Direct visit.start visit.asked visit.client
  unique : ∀ asked client, inquiry.Direct visit.start asked client →
    (asked.length = visit.asked.length ∨
      inquiry.asks visit.client = none ∧ inquiry.asks client = none) →
    asked = visit.asked ∧ client = visit.client

/-- What holds behind a sound cache. -/
structure Kept (shared : SharedCache Client Query Entry) : Prop where
  genuine : ∀ entry ∈ shared.entries, inquiry.Genuine caching entry
  starts : ∀ visit ∈ shared.visits, inquiry.starts visit.start
  direct : ∀ visit ∈ shared.visits, inquiry.Direct visit.start visit.asked visit.client

variable {inquiry caching} {shared shared' : SharedCache Client Query Entry}
  {allowed : Query → Entry → Prop}

theorem Kept.reaches (h : inquiry.Kept caching shared) {visit : Visit Client Query}
    (hvisit : visit ∈ shared.visits) : inquiry.Reaches visit.client :=
  ⟨visit.start, visit.asked, h.starts visit hvisit, h.direct visit hvisit⟩

/-- One visit goes on, and the cache changes. -/
theorem Kept.replace {entries entries' : List Entry} {before after : List (Visit Client Query)}
    {visit next : Visit Client Query}
    (h : inquiry.Kept caching ⟨entries, before ++ visit :: after⟩)
    (hgenuine : ∀ entry ∈ entries', inquiry.Genuine caching entry)
    (hstarts : inquiry.starts next.start)
    (hdirect : inquiry.Direct next.start next.asked next.client) :
    inquiry.Kept caching ⟨entries', before ++ next :: after⟩ := by
  have hsplit : ∀ other ∈ before ++ next :: after, other = next ∨ other ∈ before ++ visit :: after := by
    intro other hother
    rcases List.mem_append.mp hother with hbefore | hrest
    · exact Or.inr (List.mem_append_left _ hbefore)
    · exact (List.mem_cons.mp hrest).imp_right fun hafter ↦
        List.mem_append_right _ (List.mem_cons_of_mem _ hafter)
  constructor
  · exact hgenuine
  · intro other hother
    rcases hsplit other hother with rfl | hold
    · exact hstarts
    · exact h.starts other hold
  · intro other hother
    rcases hsplit other hother with rfl | hold
    · exact hdirect
    · exact h.direct other hold

/-- An answer of the source to one of the clients, from wherever it came. -/
theorem Kept.receive {entries : List Entry} {before after : List (Visit Client Query)}
    {visit : Visit Client Query} {query : Query} {answer : Answer}
    (h : inquiry.Kept caching ⟨entries, before ++ visit :: after⟩)
    (hasks : inquiry.asks visit.client = some query) (hanswer : inquiry.answers query answer) :
    inquiry.Kept caching ⟨(caching.keeps query answer).toList ++ entries,
      before ++ visit.receive inquiry query answer :: after⟩ := by
  have hvisit : visit ∈ before ++ visit :: after := List.mem_append_cons_self
  apply h.replace
  · intro entry hentry
    rcases List.mem_append.mp hentry with hnew | hold
    · exact ⟨visit.client, query, answer, h.reaches hvisit, hasks, hanswer,
        Option.mem_toList.mp hnew⟩
    · exact h.genuine entry hold
  · exact h.starts visit hvisit
  · exact (h.direct visit hvisit).answer hasks hanswer

/-- Nothing that happens behind a sound cache makes a difference to its clients. -/
theorem Step.kept (hsound : inquiry.Sound caching allowed)
    (hstep : Step inquiry caching allowed shared shared') (h : inquiry.Kept caching shared) :
    inquiry.Kept caching shared' := by
  cases hstep with
  | start hstarts =>
      exact ⟨h.genuine, List.forall_mem_cons.mpr ⟨hstarts, h.starts⟩,
        List.forall_mem_cons.mpr ⟨.start, h.direct⟩⟩
  | hit _ hasks hentry hfinds hallowed =>
      have hreaches := h.reaches List.mem_append_cons_self
      exact h.receive hasks (hsound hreaches hasks (h.genuine _ hentry) hfinds hallowed)
  | @miss _ _ _ visit =>
      exact h.replace h.genuine (h.starts visit List.mem_append_cons_self)
        (h.direct visit List.mem_append_cons_self)
  | answer _ hasks hanswer => exact h.receive hasks hanswer
  | evict hkept => exact ⟨fun entry hentry ↦ h.genuine entry (hkept hentry), h.starts, h.direct⟩

/-- A query that the cache cannot answer goes to the source. -/
theorem Behind.fetch {entries : List Entry} {before after : List (Visit Client Query)}
    {visit : Visit Client Query} {query : Query} {answer : Answer}
    (h : inquiry.Behind caching allowed ⟨entries, before ++ visit :: after⟩)
    (hsent : visit.sent = false) (hasks : inquiry.asks visit.client = some query)
    (hnone : ∀ entry ∈ entries, ¬ caching.finds query entry)
    (hanswer : inquiry.answers query answer) :
    inquiry.Behind caching allowed ⟨(caching.keeps query answer).toList ++ entries,
      before ++ visit.receive inquiry query answer :: after⟩ := by
  have hmiss : inquiry.Behind caching allowed
      ⟨entries, before ++ { visit with sent := true } :: after⟩ :=
    h.tail (.miss hsent hasks hnone)
  exact hmiss.tail (@Step.answer _ _ _ _ _ _ _ _ _ _ { visit with sent := true } _ _ rfl hasks hanswer)

/-- A sound cache is transparent when different answers to a query make no difference. -/
theorem Behind.transparent (hdeterminate : inquiry.Determinate)
    (hsound : inquiry.Sound caching allowed) (h : inquiry.Behind caching allowed shared) :
    ∀ visit ∈ shared.visits, inquiry.Transparent visit := by
  have hkept : inquiry.Kept caching shared := by
    induction h with
    | refl => exact ⟨nofun, nofun, nofun⟩
    | tail _ hstep ih => exact hstep.kept hsound ih
  intro visit hvisit
  have hdirect := hkept.direct visit hvisit
  exact ⟨hdirect, fun asked client hother hend ↦
    hdirect.unique hdeterminate (hkept.starts visit hvisit) hother hend⟩

end Inquiry

end Ndns.Calls
