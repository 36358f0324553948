import Mathlib.Data.List.Forall2
import NoteAgent.Http.Startup
import NoteAgent.Proofs.JsonRoundTrip
/-!
# EventFrames — a stream of events, cut at its blank lines

The text of a frame holds no line break, so the blank lines of a stream are the ends of its frames.  A client that cuts
the stream there and reads each part gets the members of each event, in order.
-/
namespace NoteAgent
namespace Chat

/-- What an event can be made of. -/
inductive Notice
  | toolCall (name arguments : String)
  | source (uid content : String)
  | token (text : String)
  | error (message : String)
  | done (session : String)

namespace Notice

def event : Notice → Event
  | toolCall name arguments => .toolCall (.text name) (.text arguments)
  | source uid content => .sourceOfText uid content
  | token text => .token text
  | error message => .error message
  | done session => .done session

/-- The members that a client is to find. -/
def members : Notice → List (String × Json)
  | toolCall name arguments =>
    [("type", .text "tool_call"), ("payload", .record [("name", .text name), ("input", .text arguments)])]
  | source uid content =>
    [("type", .text "source"),
      ("payload", .record [("note_uid", .text uid), ("snippet", .text (String.ofList (content.toList.take 200)))])]
  | token text => [("type", .text "token"), ("content", .text text)]
  | error message => [("type", .text "error"), ("content", .text message)]
  | done session => [("type", .text "done"), ("content", .text session)]

theorem members_event (n : Notice) : n.event.members = n.members := by cases n <;> rfl

theorem numberless_members (n : Notice) : Json.Numberless (.record n.members) := by
  have hpair {k l : String} (hkeys : k ≠ l) {v w : Json} (hv : v.Numberless) (hw : w.Numberless) :
      Json.Numberless (.record [(k, v), (l, w)]) := .record (by simpa using hkeys) (by simp [hv, hw])
  cases n with
  | toolCall name arguments => exact hpair (by decide) (.text _) (hpair (by decide) (.text _) (.text _))
  | source uid content => exact hpair (by decide) (.text _) (hpair (by decide) (.text _) (.text _))
  | token text => exact hpair (by decide) (.text _) (.text _)
  | error message => exact hpair (by decide) (.text _) (.text _)
  | done session => exact hpair (by decide) (.text _) (.text _)

theorem height_members (n : Notice) : Json.Value.height (.record n.members) ≤ 3 := by
  cases n <;> simp [members, Json.Value.height, Json.Value.heightOfFields]

theorem sent_event (n : Notice) : n.event.sent = .ok n.event.frame := by
  cases n <;> rfl

/-- A piece of a stream carries a notice: after the opening it is text without a line break, which reads as the
members of the notice and no others. -/
def Carries (n : Notice) (piece : List Char) : Prop :=
  ∃ text, piece = "data: ".toList ++ text ∧ '\n' ∉ text ∧ '\r' ∉ text ∧
    ∀ rules : Json.Rules, 2 ≤ rules.depth → Json.readChars rules text = .ok (Json.loose (.record n.members))

end Notice

/-- The pieces of a text between its blank lines; the one read so far is held last first. -/
def splitAtBlankLine (piece : List Char) : List Char → List (List Char)
  | [] => [piece.reverse]
  | '\n' :: '\n' :: cs => piece.reverse :: splitAtBlankLine [] cs
  | c :: cs => splitAtBlankLine (c :: piece) cs

theorem splitAtBlankLine_append {line : List Char} (h : '\n' ∉ line) (piece rest : List Char) :
    splitAtBlankLine piece (line ++ '\n' :: '\n' :: rest) = (piece.reverse ++ line) :: splitAtBlankLine [] rest := by
  induction line generalizing piece with
  | nil => simp [splitAtBlankLine]
  | cons c line ih =>
    rw [List.mem_cons, not_or] at h
    obtain ⟨hc, hline⟩ := h
    rw [List.cons_append, splitAtBlankLine, ih hline]
    · simp
    · rintro cs rfl -
      exact hc rfl

theorem splitAtBlankLine_flatMap {lines : List (List Char)} (h : ∀ line ∈ lines, '\n' ∉ line) :
    splitAtBlankLine [] (lines.flatMap (· ++ ['\n', '\n'])) = lines ++ [[]] := by
  induction lines with
  | nil => rfl
  | cons line lines ih =>
    obtain ⟨hline, hlines⟩ := List.forall_mem_cons.1 h
    rw [List.flatMap_cons, List.append_assoc]
    exact (splitAtBlankLine_append hline [] _).trans (congrArg (line :: ·) (ih hlines))

namespace Notice

/-- The frame of a notice before its blank line. -/
def line (n : Notice) : List Char :=
  "data: ".toList ++ (Json.loose (.record n.members)).write .frame

theorem carries_line (n : Notice) : n.Carries n.line := by
  have hprinted := n.numberless_members.printed Json.Style.marks_frame
  refine ⟨_, rfl, fun h => ?_, fun h => ?_, fun rules hrules => ?_⟩
  · exact absurd (hprinted _ h) (by decide)
  · exact absurd (hprinted _ h) (by decide)
  · have hheight := n.height_members
    exact n.numberless_members.readChars_write Json.Style.marks_frame (by omega)

theorem not_mem_line (n : Notice) : '\n' ∉ n.line := by
  obtain ⟨text, hline, hbreak, -⟩ := n.carries_line
  rw [hline, List.mem_append, not_or]
  exact ⟨by decide, hbreak⟩

theorem toList_frame (n : Notice) : n.event.frame.toList = n.line ++ ['\n', '\n'] := by
  rw [Event.frame, String.toList_append, String.toList_append, Json.write, String.toList_ofList, members_event]
  rfl

theorem frames_events (ns : List Notice) : Event.frames (ns.map event) = ns.map (·.event.frame) := by
  induction ns with
  | nil => rfl
  | cons n ns ih => simp [Event.frames, sent_event, ih]

/-- **A stream of events is cut at its blank lines into one piece for each event**, in order, from which its members
are read back, whatever the texts that the events are made of. -/
theorem split_streamText (ns : List Notice) :
    List.Forall₂ Carries ns
      ((splitAtBlankLine [] (Http.streamText (ns.map event)).toList).filter fun piece => !piece.isEmpty) := by
  have hstream : (Http.streamText (ns.map event)).toList = (ns.map line).flatMap (· ++ ['\n', '\n']) := by
    simp [Http.streamText, frames_events, String.toList_join, List.flatMap_map, toList_frame]
  have hlines : ∀ cs ∈ ns.map line, '\n' ∉ cs := by
    intro cs hcs
    obtain ⟨n, -, rfl⟩ := List.mem_map.1 hcs
    exact n.not_mem_line
  have hkept : ((ns.map line ++ [[]]).filter fun piece => !piece.isEmpty) = ns.map line := by
    rw [List.filter_append, List.filter_eq_self.2]
    · simp
    · intro piece hpiece
      obtain ⟨n, -, rfl⟩ := List.mem_map.1 hpiece
      rfl
  rw [hstream, splitAtBlankLine_flatMap hlines, hkept, List.forall₂_map_right_iff]
  exact List.forall₂_same.2 fun n _ => n.carries_line

end Notice
end Chat
end NoteAgent
