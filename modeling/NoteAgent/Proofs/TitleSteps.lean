import NoteAgent.Chat.Titling
import NoteAgent.Proofs.ChatRows
import NoteAgent.Proofs.TurnReach
/-!
# TitleSteps — what the steps that give a session its title come to

What a step can come to is said once, for a turn with its job (`Naming.Moves`) and for a request for another title
(`Renaming.Moves`), as long as nothing strikes the store.  Nothing else that a turn uses the chat store for changes a title
(`keeps_sameTitle_stream`).
-/
namespace NoteAgent
namespace World

open Attempt (Ends Keeps)
open Chat (Session Table)

def title? (uid : String) (w : World) : Option String := (w.chats.session? uid).map (·.title)

/-- A session that is there has the title that it had. -/
def SameTitle (uid : String) (w w' : World) : Prop := ∀ title, w.title? uid = some title → w'.title? uid = some title

variable {uid : String} {w w' : World}

theorem SameTitle.of_eq (h : w'.title? uid = w.title? uid) : SameTitle uid w w' := fun _ ht => h.trans ht

theorem SameTitle.of_chats (h : w'.chats = w.chats) : SameTitle uid w w' := .of_eq (by rw [title?, h, title?])

instance : Std.Refl (SameTitle uid) := ⟨fun _ _ h => h⟩
instance : Trans (SameTitle uid) (SameTitle uid) (SameTitle uid) := ⟨fun h h' title ht => h' title (h title ht)⟩

theorem title?_map {f : Session → Session} (hf : Table.KeepsNames f)
    (h : w'.chats.sessions = w.chats.sessions.map f) :
    w'.title? uid = (w.chats.session? uid).map fun s => (f s).title := by
  rw [title?, Table.session?_map hf h, Option.map_map]
  rfl

theorem title?_revise {target : String} {title summary : Option String} {now : Int}
    (h : w.chats.revise target title summary now = .ok w'.chats) :
    w'.title? uid = (w.title? uid).map fun old => if uid = target then title.getD old else old := by
  have hnames : Table.KeepsNames fun s => if s.uid == target then Table.Session.revised title summary now s else s := by
    intro s
    dsimp only
    split <;> exact ⟨rfl, rfl⟩
  rw [title?_map hnames (congrArg Table.sessions (Table.revise_ok h)), title?, Option.map_map]
  cases hfound : w.chats.session? uid with
  | none => rfl
  | some s =>
    obtain ⟨-, rfl⟩ := Table.session?_some hfound
    by_cases htarget : s.uid = target <;> simp [htarget, Table.Session.revised]

theorem sameTitle_revise {target : String} {summary : Option String} {now : Int}
    (h : w.chats.revise target none summary now = .ok w'.chats) : SameTitle uid w w' := by
  refine .of_eq ((title?_revise h).trans ?_)
  cases w.title? uid <;> simp

theorem sameTitle_compact {target summary : String} {bound now : Int}
    (h : w.chats.compact target summary bound now = .ok w'.chats) : SameTitle uid w w' := by
  obtain ⟨s, -, hchats⟩ := Table.compact_ok h
  refine .of_eq ((title?_map (Table.keepsNames_summed _ _ _) (congrArg Table.sessions hchats)).trans ?_)
  have htitle (x : Session) : (Table.Session.summed s.id summary now x).title = x.title := by
    unfold Table.Session.summed
    split <;> rfl
  simp only [htitle]
  rfl

theorem sameTitle_addMessage {session now : Int} {role content toolName : String} {m : Chat.Message}
    (h : w.chats.addMessage session role content toolName now = .ok (m, w'.chats)) : SameTitle uid w w' := by
  obtain ⟨-, -, hchats⟩ := Table.addMessage_ok h
  exact .of_eq (by rw [title?, hchats]; rfl)

theorem sameTitle_addSession {target title : String} {owner now : Int} {s : Session}
    (h : w.chats.addSession target owner title now = .ok (s, w'.chats)) : SameTitle uid w w' := by
  obtain ⟨-, -, -, hchats⟩ := Table.addSession_ok h
  intro title htitle
  obtain ⟨x, hx, rfl⟩ := Option.map_eq_some_iff.1 htitle
  have hfound : w'.chats.session? uid = some x := by
    rw [Table.session?, hchats, List.find?_append, ← Table.session?, hx]
    rfl
  rw [World.title?, hfound]
  rfl

/-! ## Everything in a turn but its job -/

theorem keeps_sameTitle_addMessage (session : Int) (role content toolName : String) :
    Keeps (SameTitle uid) (addMessage session role content toolName) := fun w => by
  obtain ⟨-, hsame | ⟨m, hm⟩⟩ := addMessage_ends session role content toolName w
  · exact .of_chats hsame
  · exact sameTitle_addMessage hm

theorem keeps_sameTitle_touch (target : String) (summary : Option String) :
    Keeps (SameTitle uid) (reviseSession target none summary) := fun w => by
  obtain ⟨-, hsame | hrevised⟩ := reviseSession_ends target none summary w
  · exact .of_chats hsame
  · exact sameTitle_revise hrevised

theorem Aside.sameTitle (h : Aside w w') : SameTitle uid w w' := .of_chats h.chats

end World

namespace Chat
namespace Turn

open Attempt (Answers Ends Keeps)
open World (SameTitle)

variable {uid : String}

/-- **A turn changes no title**: only the job that it leaves behind can. -/
theorem keeps_sameTitle_stream (settings : Settings) (who : Tool.Caller) (s : Session) (text : LooseText) :
    Keeps (SameTitle uid) (stream settings who s text) := by
  have hlisting : Keeps (SameTitle uid) (listing s.id) := fun w => by
    rw [(Stage.listing_ends s.id w).1]
    exact .of_chats rfl
  refine keeps_stream hlisting (Compaction.keeps_fold (fun _ _ => .of_chats rfl) (fun uid summary bound w => ?_) _ _)
    (fun session => ?_) who text
  · obtain ⟨-, ⟨hsame, -⟩ | ⟨hcompact, -⟩⟩ := World.foldHistory_ends uid summary bound w
    · exact .of_chats hsame
    · exact World.sameTitle_compact hcompact
  · exact ⟨fun _ => .of_chats rfl, World.keeps_sameTitle_addMessage session, fun _ => World.keeps_sameTitle_touch _ _,
      fun t => (World.aside_indexed t).mono World.Aside.sameTitle,
      fun who _ _ => (Agent.aside_run who _ _).mono World.Aside.sameTitle⟩

/-- With no messages to fold away a turn goes on with the session that it was given, if it goes on. -/
theorem compacted_nil {policy : Compaction.Policy} {s s' : Session} {kept : List Message} {w : World}
    (h : (compacted policy s [] w).1 = .ok (kept, some s')) : s' = s := by
  have hfold : ∀ r, (Compaction.fold policy s [] w).1 = .ok r → r = ([], some s) := by
    intro r hr
    cases hn : Compaction.oldCount? policy [] with
    | none =>
      rw [Compaction.fold_none hn] at hr
      exact (Except.ok.inj hr).symm
    | some n =>
      -- a bound cannot be found for no messages
      rw [Compaction.fold_some hn, Attempt.bind_run, List.take_nil, List.drop_nil] at hr
      split at hr <;> cases hr
  unfold compacted at h
  rw [Attempt.settle_bind_run] at h
  cases hr : (Compaction.fold policy s [] w).1 with
  | ok r =>
    rw [hr, hfold r hr] at h
    cases h
    rfl
  | error e =>
    rw [hr] at h
    dsimp only at h
    split at h
    · cases h
      rfl
    · cases h

theorem goOn_job (settings : Settings) (who : Tool.Caller) (s : Session) (history kept : List Message)
    (text : LooseText) :
    Answers (fun p => p.1.job = job? s history text) (goOn settings who s history kept text) := by
  refine .bind fun _ => .bind fun now => ?_
  cases now with
  | error e => exact .done rfl
  | ok now =>
    refine .bind fun o => ?_
    simp only
    split
    · exact .done rfl
    · refine .bind fun found => ?_
      cases found <;> exact .done rfl

theorem job?_eq_some {s : Session} {history : List Message} {text : LooseText} {job : Job} :
    job? s history text = some job ↔ history = [] ∧ s.title = defaultTitle ∧ job = ⟨s.uid, text⟩ := by
  unfold job?
  by_cases hfirst : (history.isEmpty && s.title == defaultTitle) = true
  · rw [if_pos hfirst, Option.some_inj]
    rw [Bool.and_eq_true, List.isEmpty_iff, beq_iff_eq] at hfirst
    exact ⟨fun h => ⟨hfirst.1, hfirst.2, h.symm⟩, fun h => h.2.2.symm⟩
  · rw [if_neg hfirst]
    rw [Bool.and_eq_true, List.isEmpty_iff, beq_iff_eq] at hfirst
    exact ⟨fun h => (by cases h), fun h => absurd ⟨h.1, h.2.1⟩ hfirst⟩

theorem attempt_job (settings : Settings) (who : Tool.Caller) (s : Session) (text : LooseText) (w : World) :
    Ends (attempt settings who s text) w fun r _ => ∀ account failure job, r = .ok (account, failure) →
      account.job = some job → ∃ history, (listing s.id w).1 = .ok history ∧ job? s history text = some job := by
  have hnone {failure failure' : Option Failure} {account : Account} {job : Job} {P : Prop}
      (h : (.ok (⟨[], none⟩, failure) : Except Failure (Account × Option Failure)) = .ok (account, failure'))
      (hjob : account.job = some job) : P := by
    cases h
    cases hjob
  refine Ends.settle (P := fun r _ => (listing s.id w).1 = r) rfl fun listed w₁ hlisted => ?_
  cases listed with
  | error e => exact fun _ _ _ => hnone
  | ok history =>
    refine Ends.settle (P := fun r _ => (compacted settings.policy s history w₁).1 = r) rfl fun folded w₂ hfolded => ?_
    obtain _ | ⟨kept, _ | s'⟩ := folded
    · exact fun _ _ _ => hnone
    · exact fun _ _ _ => hnone
    · intro account failure job haccount hjob
      rw [goOn_job settings who s' history kept text w₂ _ haccount] at hjob
      rw [(job?_eq_some.1 hjob).1] at hfolded
      exact ⟨history, hlisted, compacted_nil hfolded ▸ hjob⟩

/-- **The job that a turn leaves behind goes by the session as it was given** and the messages as they were then. -/
theorem stream_job (settings : Settings) (who : Tool.Caller) (s : Session) (text : LooseText) (w : World) :
    Ends (stream settings who s text) w fun r _ => ∀ account job, r = .ok account → account.job = some job →
      ∃ history, (listing s.id w).1 = .ok history ∧ job? s history text = some job := by
  refine (attempt_job settings who s text w).bind (fun a w' h account job haccount hjob => ?_) fun e w' h _ _ he => ?_
  · cases haccount
    exact h _ _ job rfl hjob
  · cases he

end Turn

/-! ## Without a break -/

/-- A turn that leaves a job behind is, after it has listed the messages, where its steps are. -/
theorem Naming.left_of_stream {settings : Turn.Settings} {who : Tool.Caller} {s : Session} {text : LooseText} {w : World}
    {account : Turn.Account} {job : Job} (h : (Turn.stream settings who s text w).1 = .ok account)
    (hjob : account.job = some job) (uid : String) : ((Naming.loaded s).advance who.user uid text w).1 = .left job := by
  obtain ⟨history, hlisted, hleft⟩ := Turn.stream_job settings who s text w account job h hjob
  have hrun : listing s.id w = (.ok history, (listing s.id w).2) := Prod.ext hlisted rfl
  have hnext : (Naming.loaded s).next who.user uid text w = (.ok (.left job), (listing s.id w).2) := by
    rw [Naming.next, Attempt.bind_run_ok hrun, hleft]
    rfl
  rw [Naming.advance, hnext]
  rfl

/-- **The steps of a job without a break are the finding of a title.** -/
theorem Naming.follows_find (user : Int) (uid : String) (text : LooseText) (job : Job) (w : World) :
    let asked := (Naming.left job).advance user uid text w
    (asked.1.advance user uid text asked.2).2 = (Title.find job.session job.message w).2 := by
  dsimp only
  have hnext (r : Except Failure (Option String)) (w' : World) (hask : Title.ask job.message w = (r, w')) :
      (Naming.left job).next user uid text w = (r.map fun found => (found.map (Naming.replied job)).getD .over, w') := by
    obtain _ | _ | title := r
    · exact Attempt.bind_run_error hask
    · exact Attempt.bind_run_ok hask
    · exact Attempt.bind_run_ok hask
  rcases hask : Title.ask job.message w with ⟨_ | _ | title, w'⟩
  · rw [Naming.advance, Naming.advance, hnext _ _ hask, Title.find, Attempt.bind_run_error hask]
    rfl
  · rw [Naming.advance, Naming.advance, hnext _ _ hask, Title.find, Attempt.bind_run_ok hask]
    rfl
  · rw [Naming.advance, Naming.advance, hnext _ _ hask, Title.find, Attempt.bind_run_ok hask]
    dsimp only
    rw [Attempt.settle_bind_run]
    cases (World.reviseSession job.session (some title) none w').1 <;> rfl

/-- **The steps of a request for a title without a break are the answering of it**, which succeeds just if the title is
given in the end. -/
theorem Renaming.follows_retitle (user : Int) (uid : String) (title : LooseText) (w : World) :
    let found := Renaming.waiting.advance user uid title w
    let ended := found.1.advance user uid title found.2
    ended.2 = (Http.retitle user uid title w).2 ∧
      ((∃ given, ended.1 = .renamed given) ↔ ∃ response, (Http.retitle user uid title w).1 = .ok response) := by
  dsimp only
  rcases hown : Http.ownSession user uid w with ⟨e | s, w₁⟩
  · have hnext : Renaming.waiting.next user uid title w = (.error e, w₁) := Attempt.bind_run_error hown
    rw [Renaming.advance, Renaming.advance, hnext, Http.retitle, Attempt.bind_run_error hown]
    exact ⟨rfl, fun ⟨_, h⟩ => (by cases h), fun ⟨_, h⟩ => (by cases h)⟩
  · have hnext : Renaming.waiting.next user uid title w = (.ok .owned, w₁) := Attempt.bind_run_ok hown
    rw [Renaming.advance, Renaming.advance, hnext, Http.retitle, Attempt.bind_run_ok hown]
    simp only [Renaming.reached, Renaming.next]
    change _ = ((Attempt.ofExcept (Renaming.wanted title) >>= _) w₁).2 ∧
      (_ ↔ ∃ response, ((Attempt.ofExcept (Renaming.wanted title) >>= _) w₁).1 = .ok response)
    cases hwanted : Renaming.wanted title with
    | error e =>
      rw [Attempt.bind_run_error (Attempt.ofExcept_run _ _), Attempt.bind_run_error (Attempt.ofExcept_run _ _)]
      exact ⟨rfl, fun ⟨_, h⟩ => (by cases h), fun ⟨_, h⟩ => (by cases h)⟩
    | ok given =>
      rw [Attempt.bind_run_ok (Attempt.ofExcept_run _ _), Attempt.bind_run_ok (Attempt.ofExcept_run _ _)]
      rcases hrevised : World.reviseSession uid (some given) none w₁ with ⟨e | updated, w₂⟩
      · rw [Attempt.bind_run_error hrevised, Attempt.bind_run_error hrevised]
        exact ⟨rfl, fun ⟨_, h⟩ => (by cases h), fun ⟨_, h⟩ => (by cases h)⟩
      · rw [Attempt.bind_run_ok hrevised, Attempt.bind_run_ok hrevised]
        cases updated with
        | none => exact ⟨rfl, fun ⟨_, h⟩ => (by cases h), fun ⟨_, h⟩ => (by cases h)⟩
        | some s => exact ⟨rfl, fun _ => ⟨_, rfl⟩, fun _ => ⟨_, rfl⟩⟩

end Chat

/-! ## What each step comes to -/

namespace World

open Attempt (Ends Keeps)
open Chat (Session Table)

variable {w : World}

/-- Where nothing strikes the store, a session that is revised is read as it is then. -/
theorem reviseSession_steady (hw : w.Steady) (hclock : fitsColumn w.clock = true) (uid : String)
    (title summary : Option String) : Ends (reviseSession uid title summary) w fun r w' => Beside w w' ∧
      w.chats.revise uid title summary w.clock = .ok w'.chats ∧ r = .ok (w'.chats.session? uid) := by
  obtain ⟨t, ht⟩ : ∃ t, w.chats.revise uid title summary w.clock = .ok t := by
    rw [Table.revise, checkColumns, if_pos (by simp [hclock])]
    exact ⟨_, rfl⟩
  let w₁ : World := { w.chatUsed with chats := t }
  have hon : onChats (fun t => do return ((), ← t.revise uid title summary w.clock)) w.chatUsed = (.ok (), w₁) := by
    simp only [onChats, chatUsed, ht]
    rfl
  have hread : findSession uid w₁ = (.ok (t.session? uid), w₁.chatUsed) := by
    rw [findSession_run, show w₁.chatFaults.strikes w₁.chatFaults.uses .findSession = none from hw _ _]
  have hinner : (onChats (fun t => do return ((), ← t.revise uid title summary w.clock)) >>= fun _ => findSession uid)
      w.chatUsed = (.ok (t.session? uid), w₁.chatUsed) := by rw [Attempt.bind_run_ok hon, hread]
  have hmethod : chatMethod .reviseSession (do
      let now ← .look (·.clock)
      onChats fun t => do return ((), ← t.revise uid title summary now)
      findSession uid) w = (.ok (some (t.session? uid)), w₁.chatUsed) := by
    rw [chatMethod_steady hw, Attempt.map_run, Attempt.bind_run_ok (Attempt.look_run _ _)]
    exact congrArg (fun p => (p.1.map some, p.2)) hinner
  have hrun : reviseSession uid title summary w = (.ok (t.session? uid), w₁.chatUsed) := Attempt.bind_run_ok hmethod
  unfold Ends
  rw [hrun]
  exact ⟨⟨rfl, rfl, rfl, rfl, rfl⟩, ht, rfl⟩

theorem title?_reviseSession (hw : w.Steady) (hclock : fitsColumn w.clock = true) (uid title : String) :
    Ends (reviseSession uid (some title) none) w fun r w' => Beside w w' ∧
      w'.title? uid = (w.title? uid).map (fun _ => title) ∧ r = .ok (w'.chats.session? uid) := by
  refine (reviseSession_steady hw hclock uid (some title) none).mono fun r w' h => ?_
  refine ⟨h.1, (title?_revise h.2.1).trans ?_, h.2.2⟩
  simp

/-- The clock and what strikes the chat store are as they were. -/
structure Even (w w' : World) : Prop where
  clock : w'.clock = w.clock
  strikes : w'.chatFaults.strikes = w.chatFaults.strikes

theorem Beside.even {w' : World} (h : Beside w w') : Even w w' := ⟨h.clock, h.strikes⟩

theorem even_chatUsed (w : World) : Even w w.chatUsed := ⟨rfl, rfl⟩

end World

namespace Chat

open Attempt (Ends)

/-- What a step of a turn, or of the job that it left, can come to for the session with a uid. -/
inductive Naming.Moves (uid : String) (w w' : World) : Naming → Naming → Prop
  | loads {s : Session} (chats : w'.chats = w.chats) (found : w.chats.session? uid = some s) :
    Moves uid w w' .waiting (.loaded s)
  | leaves {s : Session} {text : LooseText} (chats : w'.chats = w.chats) (untitled : s.title = defaultTitle) :
    Moves uid w w' (.loaded s) (.left ⟨s.uid, text⟩)
  | replies {job : Job} {title : String} (chats : w'.chats = w.chats) : Moves uid w w' (.left job) (.replied job title)
  | stores {job : Job} {title : String}
    (stored : w'.title? job.session = (w.title? job.session).map fun _ => title) :
    Moves uid w w' (.replied job title) .over
  | ends {st : Naming} (chats : w'.chats = w.chats) (unanswered : ∀ job title, st ≠ .replied job title) :
    Moves uid w w' st .over

theorem ask_ends (message : LooseText) (w : World) :
    Ends (Title.ask message) w fun _ w' => World.Even w w' ∧ w'.chats = w.chats := by
  refine Ends.settle (P := fun _ w' => World.Even w w' ∧ w'.chats = w.chats) ⟨⟨rfl, rfl⟩, rfl⟩ fun reply w' h => ?_
  cases reply <;> exact h

/-- **What a step of a turn with the title comes to** where nothing strikes the store, whatever the model answers. -/
theorem Naming.next_ends {w : World} (hw : w.Steady) (hclock : fitsColumn w.clock = true) (user : Int)
    (uid : String) (text : LooseText) : ∀ st : Naming,
      Ends (st.next user uid text) w fun r w' => World.Even w w' ∧ Moves uid w w' st (reached r)
  | .waiting => by
    refine (Stage.ownSession_ends user uid w).bind ?_ ?_
    · rintro s w' ⟨rfl, hs⟩
      exact ⟨World.even_chatUsed w, .loads rfl (hs s rfl).1⟩
    · rintro e w' ⟨rfl, -⟩
      exact ⟨World.even_chatUsed w, .ends rfl fun _ _ h => by cases h⟩
  | .loaded s => by
    refine (Stage.listing_ends s.id w).bind ?_ ?_
    · rintro history w' ⟨rfl, -⟩
      cases hjob : Turn.job? s history text with
      | none => exact ⟨World.even_chatUsed w, .ends rfl fun _ _ h => by cases h⟩
      | some job =>
        obtain ⟨-, huntitled, rfl⟩ := Turn.job?_eq_some.1 hjob
        exact ⟨World.even_chatUsed w, .leaves rfl huntitled⟩
    · rintro e w' ⟨rfl, -⟩
      exact ⟨World.even_chatUsed w, .ends rfl fun _ _ h => by cases h⟩
  | .left job => by
    refine (ask_ends job.message w).bind ?_ ?_
    · rintro (_ | title) w' ⟨heven, hchats⟩
      · exact ⟨heven, .ends hchats fun _ _ h => by cases h⟩
      · exact ⟨heven, .replies hchats⟩
    · rintro e w' ⟨heven, hchats⟩
      exact ⟨heven, .ends hchats fun _ _ h => by cases h⟩
  | .replied job title => by
    obtain ⟨hbeside, hstored, -⟩ := World.title?_reviseSession hw hclock job.session title
    exact ⟨hbeside.even, .stores hstored⟩
  | .over => ⟨⟨rfl, rfl⟩, .ends rfl fun _ _ h => by cases h⟩

/-- What a step of a request for a title for the session with a uid can come to. -/
inductive Renaming.Moves (uid : String) (title : LooseText) (w w' : World) : Renaming → Renaming → Prop
  | finds (chats : w'.chats = w.chats) : Moves uid title w w' .waiting .owned
  | renames {given : String} (wanted : wanted title = .ok given) (stored : w'.title? uid = some given) :
    Moves uid title w w' .owned (.renamed given)
  | fails {st : Renaming} (same : w'.title? uid = w.title? uid) (unanswered : ∀ given, st ≠ .renamed given) :
    Moves uid title w w' st .failed
  | rests {given : String} (chats : w'.chats = w.chats) : Moves uid title w w' (.renamed given) (.renamed given)

theorem Renaming.next_ends {w : World} (hw : w.Steady) (hclock : fitsColumn w.clock = true) (user : Int)
    (uid : String) (title : LooseText) : ∀ st : Renaming,
      Ends (st.next user uid title) w fun r w' => World.Even w w' ∧ Moves uid title w w' st (reached r)
  | .waiting => by
    refine (Stage.ownSession_ends user uid w).bind ?_ ?_
    · rintro s w' ⟨rfl, -⟩
      exact ⟨World.even_chatUsed w, .finds rfl⟩
    · rintro e w' ⟨rfl, -⟩
      exact ⟨World.even_chatUsed w, .fails rfl fun _ h => by cases h⟩
  | .owned => by
    unfold Ends next
    dsimp only
    cases hwanted : wanted title with
    | error e =>
      rw [Attempt.bind_run_error (Attempt.ofExcept_run _ _)]
      exact ⟨⟨rfl, rfl⟩, .fails rfl fun _ h => by cases h⟩
    | ok given =>
      obtain ⟨hbeside, hstored, hread⟩ := World.title?_reviseSession hw hclock uid given
      rw [Attempt.bind_run_ok (Attempt.ofExcept_run _ _)]
      rcases hrevised : World.reviseSession uid (some given) none w with ⟨r, w'⟩
      rw [hrevised] at hbeside hstored hread
      dsimp only at hbeside hstored hread
      subst hread
      rw [Attempt.bind_run_ok hrevised]
      cases hfound : w'.chats.session? uid with
      | none =>
        have hgone : w'.title? uid = none := by rw [World.title?, hfound]; rfl
        refine ⟨hbeside.even, .fails (hgone.trans ?_) fun _ h => by cases h⟩
        rw [hgone] at hstored
        exact (Option.map_eq_none_iff.1 hstored.symm).symm
      | some s =>
        refine ⟨hbeside.even, .renames hwanted ?_⟩
        -- the session is there, so it was there and has been given the title
        have hthere : w'.title? uid = some s.title := by rw [World.title?, hfound]; rfl
        cases hold : w.title? uid with
        | none =>
          rw [hold] at hstored
          exact absurd (hthere.symm.trans hstored) (by simp)
        | some old =>
          rw [hold] at hstored
          exact hstored
  | .renamed given => ⟨⟨rfl, rfl⟩, .rests rfl⟩
  | .failed => ⟨⟨rfl, rfl⟩, .fails rfl fun _ h => by cases h⟩

/-! ## What else the store is used for -/

namespace Use

open World (SameTitle)

/-- Neither a title is given to the session with a uid nor is it removed. -/
def LeavesTitle (uid : String) : Use → Prop
  | reviseSession target title _ => target = uid → title = none
  | removeSession target => target ≠ uid
  | _ => True

/-- The time that it is after a use, if that lets the time go on. -/
def clock? : Use → Option Int
  | elapse clock _ => some clock
  | _ => none

/-- The clock is what the use leaves, and a use that leaves the title has left it. -/
structure Spares (uid : String) (u : Use) (w w' : World) : Prop where
  clock : w'.clock = u.clock?.getD w.clock
  title : u.LeavesTitle uid → SameTitle uid w w'

theorem Spares.read {uid : String} {u : Use} {w w' : World} (h : w' = w.chatUsed) (hu : u.clock? = none) :
    Spares uid u w w' := by
  rw [h]
  exact ⟨by rw [hu]; rfl, fun _ => .of_chats rfl⟩

theorem spares_perform (uid : String) (u : Use) (w : World) : Spares uid u w (u.perform w).2 := by
  cases u with
  | addSession owner title =>
    rw [perform, Attempt.map_run]
    obtain ⟨hbeside, hsame | ⟨_, _, hadded⟩⟩ := World.addSession_ends owner title w
    · exact ⟨hbeside.clock, fun _ => .of_chats hsame⟩
    · exact ⟨hbeside.clock, fun _ => World.sameTitle_addSession hadded⟩
  | findSession target =>
    rw [perform, Attempt.map_run]
    exact .read (World.findSession_ends target w).1 rfl
  | listSessions owner =>
    rw [perform, Attempt.map_run]
    exact .read (World.sessionsOf_ends owner w) rfl
  | reviseSession target title summary =>
    rw [perform, Attempt.map_run]
    obtain ⟨hbeside, hsame | hrevised⟩ := World.reviseSession_ends target title summary w
    · exact ⟨hbeside.clock, fun _ => .of_chats hsame⟩
    · refine ⟨hbeside.clock, fun hu => .of_eq ((World.title?_revise hrevised).trans ?_)⟩
      by_cases htarget : uid = target
      · rw [hu htarget.symm]
        cases w.title? uid <;> simp
      · cases w.title? uid <;> simp [htarget]
  | removeSession target =>
    rw [perform, Attempt.map_run]
    obtain ⟨hbeside, hsame | hgone⟩ := World.removeSession_ends target w
    · exact ⟨hbeside.clock, fun _ => .of_chats hsame⟩
    · refine ⟨hbeside.clock, fun hu => .of_eq ?_⟩
      rw [World.title?, hgone, Table.session?_eraseSession hu, World.title?]
  | addMessage session role content toolName =>
    rw [perform, Attempt.map_run]
    exact ⟨(World.addMessage_ends session role content toolName w).1.clock,
      fun _ => World.keeps_sameTitle_addMessage session role content toolName w⟩
  | listMessages session =>
    rw [perform, Attempt.map_run]
    exact .read (World.messagesOf_ends session w).1 rfl
  | foldHistory strikes target summary keepFrom =>
    rw [perform, Attempt.map_run]
    obtain ⟨hbeside, ⟨hsame, -, -⟩ | ⟨hcommits, -⟩⟩ := World.foldHistoryUnder_ends strikes target summary keepFrom w
    · exact ⟨hbeside.clock, fun _ => .of_chats hsame⟩
    · exact ⟨hbeside.clock, fun _ => World.sameTitle_compact hcommits.compact⟩
  | elapse clock nextId => exact ⟨rfl, fun _ => .of_chats rfl⟩

end Use
end Chat
end NoteAgent
