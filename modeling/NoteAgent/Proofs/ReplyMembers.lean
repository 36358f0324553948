import NoteAgent.Model.Reply
/-!
# ReplyMembers — which members a reply cannot do without

The members of a reply stand at five levels, and each of them may be there, null, or missing (`ReplyLike`).  Most are asked
for in a way that takes all three.  A choice is asked for its message, and a function for its name and its arguments, as if
they were there.  So a reply is read, or refused as one that cannot be decoded, unless one of these is missing where it is
asked for (`fails_of_service_iff`); then reading breaks off with a failure that is not one of the model's service.
-/
namespace NoteAgent
namespace Model

/-! ## Replies as the service gives them -/

/-- A member is as `P` says, or it is null or missing. -/
def May (P : Json → Prop) (v : Json) (name : String) : Prop := ∀ m, v.field? name = some m → m = .null ∨ P m

def IsText (v : Json) : Prop := ∃ s, v = .text s

def IsObject (v : Json) : Prop := ∃ fields, v = .record fields

/-- A list whose items are as `P` says, or null. -/
def ListOf (P : Json → Prop) (v : Json) : Prop := ∃ items, v = .list items ∧ ∀ x ∈ items, x = .null ∨ P x

structure FunctionLike (v : Json) : Prop where
  object : IsObject v
  name : May IsText v "name"
  arguments : May IsText v "arguments"

structure CallLike (v : Json) : Prop where
  object : IsObject v
  id : May IsText v "id"
  function : May FunctionLike v "function"

structure MessageLike (v : Json) : Prop where
  object : IsObject v
  content : May IsText v "content"
  calls : May (ListOf CallLike) v "tool_calls"

structure ChoiceLike (v : Json) : Prop where
  object : IsObject v
  message : May MessageLike v "message"

/-- A reply in which each member is there, null or missing, with any number of choices and of calls. -/
structure ReplyLike (v : Json) : Prop where
  object : IsObject v
  choices : May (ListOf ChoiceLike) v "choices"

/-! ## What may be missing -/

/-- The reply offers no choice. -/
def Offerless (v : Json) : Prop :=
  v.field? "choices" = none ∨ v.field? "choices" = some .null ∨ v.field? "choices" = some (.list [])

/-- The first choice of a reply. -/
def Offers (v choice : Json) : Prop := ∃ more, v.field? "choices" = some (.list (choice :: more))

/-- The first choice has no message, not even null. -/
def LacksMessage (v : Json) : Prop := ∃ choice, Offers v choice ∧ choice.field? "message" = none

/-- The message of the first choice. -/
def Says (v message : Json) : Prop := ∃ choice, Offers v choice ∧ choice.field? "message" = some message

/-- A call has a function, and that has no name or no arguments, not even null. -/
def CallLacks (call : Json) : Prop :=
  ∃ function, call.field? "function" = some function ∧ function ≠ .null ∧
    (function.field? "name" = none ∨ function.field? "arguments" = none)

/-- A call of the message lacks the name or the arguments of its function. -/
def MessageLacks (message : Json) : Prop :=
  ∃ calls, message.field? "tool_calls" = some (.list calls) ∧ ∃ call ∈ calls, CallLacks call

/-- The members that are asked for as if they were there. -/
def asked : List String := ["message", "name", "arguments"]

/-- A member is asked for that is missing. -/
def IsMissing (e : Failure) : Prop := ∃ owner, ∃ member ∈ asked, e = .noMember owner member

theorem IsMissing.not_service {e : Failure} (h : IsMissing e) : isServiceFailure e = false := by
  obtain ⟨owner, member, -, rfl⟩ := h
  rfl

def ToolCall.Texts (c : ToolCall) : Prop := IsText c.id ∧ IsText c.name ∧ IsText c.arguments

/-- A turn whose content is a text and whose calls have texts for their ids, names and arguments. -/
def Turn.Texts (t : Turn) : Prop := IsText t.content ∧ ∀ c ∈ t.calls, c.Texts

/-! ## Members that are guarded -/

section
variable {P : Json → Prop} {v : Json} {name : String}

theorem given?_of_none (h : v.field? name = none) : given? v name = none := by rw [given?, h, Option.filter_none]

theorem given?_of_some {m : Json} (h : v.field? name = some m) (hm : isVoid m = false) : given? v name = some m := by
  rw [given?, h, Option.filter_some, hm]
  rfl

theorem given?_of_void {m : Json} (h : v.field? name = some m) (hm : isVoid m = true) : given? v name = none := by
  rw [given?, h, Option.filter_some, hm]
  rfl

theorem isText_orEmpty {m : Json} (h : m = .null ∨ IsText m) : IsText (orEmpty m) := by
  obtain rfl | ⟨s, rfl⟩ := h
  · exact ⟨"", rfl⟩
  · unfold orEmpty
    split <;> exact ⟨_, rfl⟩

/-- **A member that is there, null or missing comes to a text.** -/
theorem isText_memberOrEmpty (h : May IsText v name) : IsText (memberOrEmpty v name) := by
  unfold memberOrEmpty
  cases hf : v.field? name with
  | none =>
    rw [given?_of_none hf]
    exact ⟨"", rfl⟩
  | some m =>
    cases hm : isVoid m with
    | true =>
      rw [given?_of_void hf hm]
      exact ⟨"", rfl⟩
    | false =>
      rw [given?_of_some hf hm]
      obtain rfl | hs := h m hf
      · cases hm
      · exact hs

end

/-! ## Members that are not -/

theorem need_of_some {v m : Json} {name : String} (h : v.field? name = some m) : need v name = .ok m := by rw [need, h]

theorem need_of_none {v : Json} {name : String} (h : v.field? name = none) :
    need v name = .error (.noMember (ownerName v) name) := by rw [need, h]

theorem isMissing_noMember (owner : String) {member : String} (h : member ∈ asked) : IsMissing (.noMember owner member) :=
  ⟨owner, member, h, rfl⟩

/-! ## Calls -/

theorem readCall_of_void {call : Json} (h : given? call "function" = none) : readCall call = .ok none := by
  rw [readCall, h]

theorem readCall_of_function {call function : Json} (h : given? call "function" = some function) :
    readCall call = do
      let name ← need function "name"
      let arguments ← need function "arguments"
      return some ⟨memberOrEmpty call "id", orEmpty name, orEmpty arguments⟩ := by
  rw [readCall, h]

/-- A function is read exactly if it has a name and arguments, be they null. -/
theorem readCall_of_functionLike {call function : Json} (hcall : CallLike call)
    (hfunction : FunctionLike function) (h : given? call "function" = some function) :
    (∃ c, readCall call = .ok (some c) ∧ c.Texts) ∧ function.field? "name" ≠ none ∧ function.field? "arguments" ≠ none ∨
      (∃ e, readCall call = .error e ∧ IsMissing e) ∧
        (function.field? "name" = none ∨ function.field? "arguments" = none) := by
  rw [readCall_of_function h]
  cases hname : function.field? "name" with
  | none =>
    rw [need_of_none hname]
    exact .inr ⟨⟨_, rfl, isMissing_noMember _ (by decide)⟩, .inl rfl⟩
  | some name =>
    rw [need_of_some hname]
    cases harguments : function.field? "arguments" with
    | none =>
      rw [need_of_none harguments]
      exact .inr ⟨⟨_, rfl, isMissing_noMember _ (by decide)⟩, .inr rfl⟩
    | some arguments =>
      rw [need_of_some harguments]
      refine .inl ⟨⟨_, rfl, ?_⟩, Option.some_ne_none _, Option.some_ne_none _⟩
      exact ⟨isText_memberOrEmpty hcall.id, isText_orEmpty (hfunction.name _ hname),
        isText_orEmpty (hfunction.arguments _ harguments)⟩

/-- **A call is read or passed over, unless its function lacks a member.** -/
theorem readCall_reads {call : Json} (h : call = .null ∨ CallLike call) :
    (∃ c, readCall call = .ok c ∧ ∀ x ∈ c, x.Texts) ∧ ¬CallLacks call ∨
      (∃ e, readCall call = .error e ∧ IsMissing e) ∧ CallLacks call := by
  have hpassed (hvoid : given? call "function" = none) (hlacks : ¬CallLacks call) :
      (∃ c, readCall call = .ok c ∧ ∀ x ∈ c, x.Texts) ∧ ¬CallLacks call :=
    ⟨⟨none, readCall_of_void hvoid, fun _ hx => by cases hx⟩, hlacks⟩
  cases hf : call.field? "function" with
  | none =>
    refine .inl (hpassed (given?_of_none hf) ?_)
    rintro ⟨f, hfound, -⟩
    cases hf.symm.trans hfound
  | some function =>
    have hcall : CallLike call := h.resolve_left fun hnull => by rw [hnull] at hf; cases hf
    obtain rfl | hfunction := hcall.function function hf
    · refine .inl (hpassed (given?_of_void hf rfl) ?_)
      rintro ⟨f, hfound, hne, -⟩
      exact hne (Option.some.inj (hfound.symm.trans hf))
    · obtain ⟨fields, hfields⟩ := hfunction.object
      have hgiven := given?_of_some hf (by rw [hfields]; rfl)
      obtain ⟨⟨c, hread, htexts⟩, hname, harguments⟩ | ⟨hfails, hlacks⟩ :=
        readCall_of_functionLike hcall hfunction hgiven
      · refine .inl ⟨⟨some c, hread, fun x hx => ?_⟩, ?_⟩
        · cases hx
          exact htexts
        · rintro ⟨f, hfound, -, hlacks⟩
          cases hf.symm.trans hfound
          exact hlacks.elim hname harguments
      · refine .inr ⟨hfails, function, hf, ?_, hlacks⟩
        rw [hfields]
        exact fun hnull => by cases hnull

/-- The calls are read in order, and the first that cannot be breaks the reading off. -/
theorem readCalls_reads {calls : List Json} (h : ∀ c ∈ calls, c = .null ∨ CallLike c) :
    (∃ cs, readCalls calls = .ok cs ∧ ∀ c ∈ cs, c.Texts) ∧ (∀ c ∈ calls, ¬CallLacks c) ∨
      (∃ e, readCalls calls = .error e ∧ IsMissing e) ∧ ∃ c ∈ calls, CallLacks c := by
  induction calls with
  | nil => exact .inl ⟨⟨[], rfl, List.forall_mem_nil _⟩, List.forall_mem_nil _⟩
  | cons call calls ih =>
    obtain ⟨hcall, hcalls⟩ := List.forall_mem_cons.1 h
    rw [readCalls]
    obtain ⟨⟨c, hread, htexts⟩, hhas⟩ | ⟨⟨e, hread, he⟩, hlacks⟩ := readCall_reads hcall
    · obtain ⟨⟨cs, hrest, hrestTexts⟩, hrestHas⟩ | ⟨⟨e, hrest, he⟩, hrestLacks⟩ := ih hcalls
      · refine .inl ⟨⟨c.toList ++ cs, by rw [hread, hrest]; rfl, fun x hx => ?_⟩, List.forall_mem_cons.2 ⟨hhas, hrestHas⟩⟩
        rcases List.mem_append.1 hx with hx | hx
        · exact htexts x (Option.mem_toList.1 hx)
        · exact hrestTexts x hx
      · obtain ⟨x, hx, hxLacks⟩ := hrestLacks
        exact .inr ⟨⟨e, by rw [hread, hrest]; rfl, he⟩, x, List.mem_cons_of_mem _ hx, hxLacks⟩
    · exact .inr ⟨⟨e, by rw [hread]; rfl, he⟩, call, List.mem_cons_self, hlacks⟩

/-! ## Messages -/

theorem callsOf_of_list {message : Json} {calls : List Json} (h : message.field? "tool_calls" = some (.list calls)) :
    callsOf message = readCalls calls := by
  cases calls with
  | nil => rw [callsOf, given?_of_void h rfl, readCalls]
  | cons c cs =>
    rw [callsOf, given?_of_some h rfl]
    rfl

theorem callsOf_reads {message : Json} (h : message = .null ∨ MessageLike message) :
    (∃ cs, callsOf message = .ok cs ∧ ∀ c ∈ cs, c.Texts) ∧ ¬MessageLacks message ∨
      (∃ e, callsOf message = .error e ∧ IsMissing e) ∧ MessageLacks message := by
  have hnone (hvoid : given? message "tool_calls" = none) (hlacks : ¬MessageLacks message) :
      (∃ cs, callsOf message = .ok cs ∧ ∀ c ∈ cs, c.Texts) ∧ ¬MessageLacks message :=
    ⟨⟨[], by rw [callsOf, hvoid], List.forall_mem_nil _⟩, hlacks⟩
  cases hf : message.field? "tool_calls" with
  | none =>
    refine .inl (hnone (given?_of_none hf) ?_)
    rintro ⟨calls, hfound, -⟩
    cases hf.symm.trans hfound
  | some calls =>
    have hmessage : MessageLike message := h.resolve_left fun hnull => by rw [hnull] at hf; cases hf
    obtain rfl | ⟨calls, rfl, hitems⟩ := hmessage.calls calls hf
    · refine .inl (hnone (given?_of_void hf rfl) ?_)
      rintro ⟨calls, hfound, -⟩
      cases hf.symm.trans hfound
    · have hlacks : MessageLacks message ↔ ∃ c ∈ calls, CallLacks c := by
        refine ⟨?_, fun hc => ⟨calls, hf, hc⟩⟩
        rintro ⟨cs, hfound, hc⟩
        cases hf.symm.trans hfound
        exact hc
      rw [callsOf_of_list hf, hlacks]
      refine (readCalls_reads hitems).imp_left fun ⟨hok, hhas⟩ => ⟨hok, ?_⟩
      rintro ⟨c, hc, hcLacks⟩
      exact hhas c hc hcLacks

/-- A message without content has the empty one. -/
theorem isText_content {message : Json} (h : message = .null ∨ MessageLike message) :
    IsText (memberOrEmpty message "content") := by
  obtain rfl | hmessage := h
  · exact ⟨"", rfl⟩
  · exact isText_memberOrEmpty hmessage.content

theorem turnOf_reads {message : Json} (h : message = .null ∨ MessageLike message) :
    (∃ t, turnOf message = .ok t ∧ t.Texts) ∧ ¬MessageLacks message ∨
      (∃ e, turnOf message = .error e ∧ IsMissing e) ∧ MessageLacks message := by
  unfold turnOf
  refine (callsOf_reads h).imp ?_ ?_
  · rintro ⟨⟨cs, hread, htexts⟩, hhas⟩
    refine ⟨?_, hhas⟩
    obtain ⟨s, hs⟩ := isText_content h
    rw [hread, hs]
    cases cs with
    | nil => exact ⟨_, rfl, ⟨s, rfl⟩, List.forall_mem_nil _⟩
    | cons c cs => exact ⟨_, rfl, ⟨s, rfl⟩, htexts⟩
  · rintro ⟨⟨e, hread, he⟩, hlacks⟩
    exact ⟨⟨e, by rw [hread]; rfl, he⟩, hlacks⟩

/-! ## Replies -/

/-- What a reply comes to before it is read: it offers nothing, or its first choice has no message, or it has one. -/
theorem message_reads {v : Json} (h : ReplyLike v) :
    Offerless v ∧ (Reply.answer v).message = .error .undecodable ∨
      LacksMessage v ∧ (∃ e, (Reply.answer v).message = .error e ∧ IsMissing e) ∨
      ∃ m, Says v m ∧ (m = .null ∨ MessageLike m) ∧ (Reply.answer v).message = .ok m := by
  have hvoid (hgiven : given? v "choices" = none) : (Reply.answer v).message = .error .undecodable := by
    rw [Reply.message, hgiven]
  cases hf : v.field? "choices" with
  | none => exact .inl ⟨.inl hf, hvoid (given?_of_none hf)⟩
  | some choices =>
    obtain rfl | ⟨_ | ⟨choice, more⟩, rfl, hitems⟩ := h.choices choices hf
    · exact .inl ⟨.inr (.inl hf), hvoid (given?_of_void hf rfl)⟩
    · exact .inl ⟨.inr (.inr hf), hvoid (given?_of_void hf rfl)⟩
    · have hread : (Reply.answer v).message = need choice "message" := by
        rw [Reply.message, given?_of_some hf rfl]
        rfl
      rw [hread]
      cases hm : choice.field? "message" with
      | none =>
        rw [need_of_none hm]
        exact .inr (.inl ⟨⟨choice, ⟨more, hf⟩, hm⟩, _, rfl, isMissing_noMember _ (by decide)⟩)
      | some m =>
        rw [need_of_some hm]
        refine .inr (.inr ⟨m, ⟨choice, ⟨more, hf⟩, hm⟩, ?_, rfl⟩)
        obtain hnull | hchoice := hitems choice List.mem_cons_self
        · rw [hnull] at hm
          cases hm
        · exact hchoice.message m hm

theorem Offerless.not_offers {v : Json} (h : Offerless v) (choice : Json) : ¬Offers v choice := by
  rintro ⟨more, hmore⟩
  obtain hnone | hnull | hempty := h
  · cases hnone.symm.trans hmore
  · cases hnull.symm.trans hmore
  · cases hempty.symm.trans hmore

theorem Says.eq {v m m' : Json} (h : Says v m) (h' : Says v m') : m = m' := by
  obtain ⟨c, ⟨more, hmore⟩, hm⟩ := h
  obtain ⟨c', ⟨more', hmore'⟩, hm'⟩ := h'
  cases hmore.symm.trans hmore'
  exact Option.some.inj (hm.symm.trans hm')

theorem Says.not_lacksMessage {v m : Json} (h : Says v m) : ¬LacksMessage v := by
  obtain ⟨c, ⟨more, hmore⟩, hm⟩ := h
  rintro ⟨c', ⟨more', hmore'⟩, hnone⟩
  cases hmore.symm.trans hmore'
  cases hm.symm.trans hnone

/-- What reading a reply comes to: an answer that is as meant, a reply that offers nothing, or a member that is missing. -/
inductive Reading {α : Type} (Meant : α → Prop) (v : Json) : Except Failure α → Prop
  | read {a : α} (meant : Meant a) : Reading Meant v (.ok a)
  | undecodable (offerless : Offerless v) : Reading Meant v (.error .undecodable)
  | missing {e : Failure} (missing : IsMissing e) : Reading Meant v (.error e)

/-- A failure that is of the model's service, should there be one. -/
def FailsOfService {α : Type} (r : Except Failure α) : Prop := ∀ e, r = .error e → isServiceFailure e = true

theorem failsOfService_ok {α : Type} (a : α) : FailsOfService (.ok a : Except Failure α) := fun _ h => by cases h

theorem failsOfService_undecodable {α : Type} : FailsOfService (.error .undecodable : Except Failure α) := fun e h => by
  cases h
  rfl

theorem not_failsOfService {α : Type} {e : Failure} (h : IsMissing e) : ¬FailsOfService (.error e : Except Failure α) :=
  fun hall => by
    have hservice := hall e rfl
    rw [h.not_service] at hservice
    cases hservice

section
variable {r : Reply} {m : Json} {e : Failure}

theorem turn_of_message (h : r.message = .ok m) : r.turn = turnOf m := by
  rw [Reply.turn, h]
  rfl

theorem turn_of_error (h : r.message = .error e) : r.turn = .error e := by
  rw [Reply.turn, h]
  rfl

theorem stripped_of_message {s : String} (h : r.message = .ok m) (hs : memberOrEmpty m "content" = .text s) :
    r.stripped = .ok (Text.strip s) := by
  rw [Reply.stripped, h]
  simp only [bind, Except.bind]
  rw [hs]
  rfl

theorem stripped_of_error (h : r.message = .error e) : r.stripped = .error e := by
  rw [Reply.stripped, h]
  rfl

end

theorem turn_reads {v : Json} (h : ReplyLike v) : Reading Turn.Texts v (Reply.answer v).turn ∧
    (FailsOfService (Reply.answer v).turn ↔ ¬LacksMessage v ∧ ∀ m, Says v m → ¬MessageLacks m) := by
  obtain ⟨hnone, hread⟩ | ⟨hlacks, e, hread, he⟩ | ⟨m, hsaid, hmessage, hread⟩ := message_reads h
  · rw [turn_of_error hread]
    refine ⟨.undecodable hnone, fun _ => ⟨?_, ?_⟩, fun _ => failsOfService_undecodable⟩
    · rintro ⟨c, hc, -⟩
      exact hnone.not_offers c hc
    · rintro m ⟨c, hc, -⟩
      exact absurd hc (hnone.not_offers c)
  · rw [turn_of_error hread]
    exact ⟨.missing he, fun hall => absurd hall (not_failsOfService he), fun hhas => absurd hlacks hhas.1⟩
  · have hlacks : (∀ m, Says v m → ¬MessageLacks m) ↔ ¬MessageLacks m :=
      ⟨fun hall => hall m hsaid, fun hm m' hsaid' => hsaid.eq hsaid' ▸ hm⟩
    rw [turn_of_message hread, hlacks]
    obtain ⟨⟨t, hturn, htexts⟩, hhas⟩ | ⟨⟨e, hturn, he⟩, hmissing⟩ := turnOf_reads hmessage
    · rw [hturn]
      exact ⟨.read htexts, fun _ => ⟨hsaid.not_lacksMessage, hhas⟩, fun _ => failsOfService_ok t⟩
    · rw [hturn]
      exact ⟨.missing he, fun hall => absurd hall (not_failsOfService he), fun hhas => absurd hmissing hhas.2⟩

theorem stripped_reads {v : Json} (h : ReplyLike v) : Reading (fun _ => True) v (Reply.answer v).stripped ∧
    (FailsOfService (Reply.answer v).stripped ↔ ¬LacksMessage v) := by
  obtain ⟨hnone, hread⟩ | ⟨hlacks, e, hread, he⟩ | ⟨m, hsaid, hmessage, hread⟩ := message_reads h
  · rw [stripped_of_error hread]
    refine ⟨.undecodable hnone, fun _ => ?_, fun _ => failsOfService_undecodable⟩
    rintro ⟨c, hc, -⟩
    exact hnone.not_offers c hc
  · rw [stripped_of_error hread]
    exact ⟨.missing he, fun hall => absurd hall (not_failsOfService he), fun hhas => absurd hlacks hhas⟩
  · obtain ⟨s, hs⟩ := isText_content hmessage
    rw [stripped_of_message hread hs]
    exact ⟨.read trivial, fun _ => hsaid.not_lacksMessage, fun _ => failsOfService_ok _⟩

/-- **A reply is read, or refused as one that cannot be decoded, unless a member is missing that is asked for as if it were
there**: for a text that is the message of the first choice, and for a turn also the name or the arguments of a function
that a call has. -/
theorem fails_of_service_iff {v : Json} (h : ReplyLike v) :
    Reading Turn.Texts v (Reply.answer v).turn ∧ Reading (fun _ => True) v (Reply.answer v).stripped ∧
    (FailsOfService (Reply.answer v).turn ↔ ¬LacksMessage v ∧ ∀ m, Says v m → ¬MessageLacks m) ∧
    (FailsOfService (Reply.answer v).stripped ↔ ¬LacksMessage v) :=
  ⟨(turn_reads h).1, (stripped_reads h).1, (turn_reads h).2, (stripped_reads h).2⟩

/-! ### Two replies -/

/-- A reply with one choice, which has this message. -/
def withMessage (message : Json) : Json := .record [("choices", .list [.record [("message", message)]])]

theorem May.of_missing {P : Json → Prop} {v : Json} {name : String} (h : v.field? name = none) : May P v name :=
  fun m hm => by cases h.symm.trans hm

theorem May.of_field {P : Json → Prop} {v m : Json} {name : String} (h : v.field? name = some m) (hm : m = .null ∨ P m) :
    May P v name := fun m' hm' => by
  cases h.symm.trans hm'
  exact hm

theorem replyLike_withMessage {message : Json} (h : message = .null ∨ MessageLike message) :
    ReplyLike (withMessage message) := by
  refine ⟨⟨_, rfl⟩, .of_field rfl (.inr ⟨_, rfl, fun c hc => .inr ?_⟩)⟩
  rw [List.mem_singleton.1 hc]
  exact ⟨⟨_, rfl⟩, .of_field rfl h⟩

/-- A message without content: a call that is null, one without a function, and one whose function has null for a name. -/
def patchyMessage : Json := .record [("tool_calls", .list [.null, .record [("id", .text "a")],
  .record [("id", .null), ("function", .record [("name", .null), ("arguments", .text "\x7b\x7d")])]])]

theorem messageLike_patchy : MessageLike patchyMessage := by
  refine ⟨⟨_, rfl⟩, .of_missing rfl, .of_field rfl (.inr ⟨_, rfl, fun c hc => ?_⟩)⟩
  simp only [List.mem_cons, List.not_mem_nil, or_false] at hc
  obtain rfl | rfl | rfl := hc
  · exact .inl rfl
  · exact .inr ⟨⟨_, rfl⟩, .of_field rfl (.inr ⟨_, rfl⟩), .of_missing rfl⟩
  · refine .inr ⟨⟨_, rfl⟩, .of_field rfl (.inl rfl), .of_field rfl (.inr ⟨⟨_, rfl⟩, ?_, ?_⟩)⟩
    · exact .of_field rfl (.inl rfl)
    · exact .of_field rfl (.inr ⟨_, rfl⟩)

theorem fails_of_service_iff_patchy : ReplyLike (withMessage patchyMessage) ∧
    (Reply.answer (withMessage patchyMessage)).turn = .ok ⟨.text "", [⟨.text "", .text "", .text "\x7b\x7d"⟩]⟩ ∧
    ¬LacksMessage (withMessage patchyMessage) ∧ ∀ m, Says (withMessage patchyMessage) m → ¬MessageLacks m := by
  have hreply := replyLike_withMessage (.inr messageLike_patchy)
  have hturn : (Reply.answer (withMessage patchyMessage)).turn =
      .ok ⟨.text "", [⟨.text "", .text "", .text "\x7b\x7d"⟩]⟩ := rfl
  refine ⟨hreply, hturn, (fails_of_service_iff hreply).2.2.1.1 ?_⟩
  rw [hturn]
  exact failsOfService_ok _

/-- A message with a call whose function has a name and no arguments. -/
def bareMessage : Json := .record [("content", .text "x"),
  ("tool_calls", .list [.record [("id", .text "a"), ("function", .record [("name", .text "n")])]])]

/-- **A function without arguments breaks a turn off, and a choice without a message a completion**, each with a failure
that is not of the model's service. -/
theorem missing_members_break :
    ReplyLike (withMessage bareMessage) ∧
    (Reply.answer (withMessage bareMessage)).turn = .error (.noMember replyObject "arguments") ∧
    isServiceFailure (.noMember replyObject "arguments") = false ∧
    ReplyLike (.record [("choices", .list [.record []])]) ∧
    (Reply.answer (.record [("choices", .list [.record []])])).stripped = .error (.noMember replyObject "message") ∧
    isServiceFailure (.noMember replyObject "message") = false := by
  have hbare : MessageLike bareMessage := by
    refine ⟨⟨_, rfl⟩, .of_field rfl (.inr ⟨_, rfl⟩), .of_field rfl (.inr ⟨_, rfl, fun c hc => .inr ?_⟩)⟩
    rw [List.mem_singleton.1 hc]
    refine ⟨⟨_, rfl⟩, .of_field rfl (.inr ⟨_, rfl⟩), .of_field rfl (.inr ⟨⟨_, rfl⟩, ?_, .of_missing rfl⟩)⟩
    exact .of_field rfl (.inr ⟨_, rfl⟩)
  refine ⟨replyLike_withMessage (.inr hbare), rfl, rfl, ?_, rfl, rfl⟩
  refine ⟨⟨_, rfl⟩, .of_field rfl (.inr ⟨_, rfl, fun c hc => .inr ?_⟩)⟩
  rw [List.mem_singleton.1 hc]
  exact ⟨⟨_, rfl⟩, .of_missing rfl⟩

end Model
end NoteAgent
