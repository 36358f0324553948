import NoteAgent.Proofs.AgentRounds
import NoteAgent.Proofs.JsonRoundTrip
import NoteAgent.Proofs.ListTraversal
import NoteAgent.Proofs.SessionSecrecy
/-!
# ArgumentPassing — a tool called from outside takes the arguments of its body

The body of a request is read, written out in the escaped style and handed to the tool as text.  That text is read as a
value alike (`Json.Readable.readArguments_escaped`), and a form takes the same arguments from values that are alike
(`Form.ofJson?_alike`).  So a tool does what it does when the agent calls it with any text that is read as such a value.
Texts are of Unicode characters throughout; half of a surrogate pair standing alone is no such text.
-/
namespace NoteAgent

/-! ## Values that are alike -/

namespace Json

/-- Values that are the same but for the order of fields and for what their real numbers are. -/
inductive Alike : Json → Json → Prop
  | null : Alike .null .null
  | bool (b : Bool) : Alike (.bool b) (.bool b)
  | int (n : Int) : Alike (.int n) (.int n)
  | real (x y : Float) : Alike (.real x) (.real y)
  | text (s : String) : Alike (.text s) (.text s)
  | list {vs us : List Json} (items : List.Forall₂ Alike vs us) : Alike (.list vs) (.list us)
  | record {fs gs : List (String × Json)} (fields : ∀ key, Option.Rel Alike (lookup key fs) (lookup key gs)) :
    Alike (.record fs) (.record gs)

theorem lookup_map {α β : Type} (key : String) (f : α → β) (fs : List (String × α)) :
    lookup key (fs.map fun g => (g.1, f g.2)) = (lookup key fs).map f := by
  induction fs with
  | nil => rfl
  | cons g fs ih =>
    simp only [List.map_cons, lookup, ih]
    split <;> rfl

theorem mem_of_lookup {α : Type} {key : String} {a : α} {fs : List (String × α)} (h : lookup key fs = some a) :
    ∃ g ∈ fs, g.2 = a := by
  induction fs with
  | nil => cases h
  | cons g fs ih =>
    simp only [lookup] at h
    split at h
    · exact ⟨g, by simp, Option.some.inj h⟩
    · obtain ⟨g', hg', rfl⟩ := ih h
      exact ⟨g', List.mem_cons_of_mem _ hg', rfl⟩

theorem Readable.alike_onReals {rules : Rules} {v : Json} (h : Readable rules v) (f : Float → Float) :
    Alike v (v.onReals f) := by
  induction h with
  | null => exact .null
  | bool b => exact .bool b
  | int => exact .int _
  | real x => exact .real x (f x)
  | text s => exact .text s
  | @list vs _ ih =>
    rw [onReals_list]
    exact .list (List.forall₂_map_right_iff.2 (List.forall₂_same.2 ih))
  | @record fs _ _ ih =>
    rw [onReals_record]
    refine .record fun key => ?_
    rw [lookup_map]
    cases hv : lookup key fs with
    | none => exact .none
    | some v =>
      obtain ⟨g, hg, rfl⟩ := mem_of_lookup hv
      exact .some (ih g hg)

/-- **What is handed on as text is read as a value alike.** -/
theorem Readable.readArguments_escaped {v : Json} (h : Readable .arguments v)
    (hheight : v.height ≤ Rules.arguments.depth + 1) : ∃ u, readArguments (escaped (loose v)) = some u ∧ Alike v u := by
  obtain ⟨f, hf⟩ := Readable.comesBack_escaped
  exact ⟨v.onReals f, (hf h).readArguments Style.marks_escaped hheight (String.toList_ofList ..), h.alike_onReals f⟩

end Json

/-! ## Arguments -/

namespace Tool

open Json (Alike)

/-- What an argument of a kind is, given the value of its field: empty without a field, or the text or texts of it. -/
inductive ArgumentKind.Takes : ArgumentKind → Option Json → Argument → Prop
  | absent (kind : ArgumentKind) : Takes kind none kind.empty
  | text (s : String) : Takes .text (some (.text s)) (.text s)
  | texts (ss : List String) : Takes .texts (some (.list (ss.map .text))) (.texts ss)

/-- A value is of a kind: a text, or a list of texts. -/
def ArgumentKind.Fits : ArgumentKind → Json → Prop
  | .text, v => ∃ s, v = .text s
  | .texts, v => ∃ ss : List String, v = .list (ss.map .text)

theorem textOf?_eq_some {v : Json} {s : String} : textOf? v = some s ↔ v = .text s := by
  cases v <;> simp [textOf?]

theorem texts_eq_some {vs : List Json} {ss : List String} : vs.mapM textOf? = some ss ↔ vs = ss.map .text := by
  simp only [mapM_eq_some, textOf?_eq_some]
  induction vs generalizing ss with
  | nil => cases ss <;> simp
  | cons v vs ih => cases ss <;> simp [ih]

theorem ofJson?_eq_some {kind : ArgumentKind} {v : Json} {a : Argument} :
    kind.ofJson? v = some a ↔ kind.Takes (some v) a := by
  constructor
  · intro h
    cases kind with
    | text =>
      obtain ⟨s, hs, rfl⟩ := Option.map_eq_some_iff.1 h
      rw [textOf?_eq_some.1 hs]
      exact .text s
    | texts =>
      cases v <;> try cases h
      obtain ⟨ss, hss, rfl⟩ := Option.map_eq_some_iff.1 h
      rw [texts_eq_some.1 hss]
      exact .texts ss
  · intro h
    cases h with
    | text s => rfl
    | texts ss => rw [ArgumentKind.ofJson?, texts_eq_some.2 rfl, Option.map_some]

theorem ofJson?_eq_none {kind : ArgumentKind} {v : Json} : kind.ofJson? v = none ↔ ¬kind.Fits v := by
  have hfits : kind.Fits v ↔ ∃ a, kind.Takes (some v) a := by
    constructor
    · cases kind with
      | text => rintro ⟨s, rfl⟩; exact ⟨_, .text s⟩
      | texts => rintro ⟨ss, rfl⟩; exact ⟨_, .texts ss⟩
    · rintro ⟨a, h⟩
      cases h with
      | text s => exact ⟨s, rfl⟩
      | texts ss => exact ⟨ss, rfl⟩
  rw [hfits, Option.eq_none_iff_forall_ne_some, not_exists]
  exact forall_congr' fun a => not_congr ofJson?_eq_some

theorem find?_eq_some {kind : ArgumentKind} {name : String} {fields : List (String × Json)} {a : Argument} :
    kind.find? name fields = some a ↔ kind.Takes (Json.lookup name fields) a := by
  unfold ArgumentKind.find?
  cases Json.lookup name fields with
  | some v => exact ofJson?_eq_some
  | none =>
    constructor
    · rintro ⟨⟩
      exact .absent kind
    · rintro ⟨⟩
      rfl

theorem find?_eq_none {kind : ArgumentKind} {name : String} {fields : List (String × Json)} :
    kind.find? name fields = none ↔ ∃ v, Json.lookup name fields = some v ∧ ¬kind.Fits v := by
  unfold ArgumentKind.find?
  cases Json.lookup name fields with
  | some v => simp [ofJson?_eq_none]
  | none => simp

namespace Form

/-- A form takes the value of each field it declares, or nothing where the field is not there. -/
def Takes (form : Form) (fields : List (String × Json)) (args : Arguments) : Prop :=
  List.Forall₂ (fun d a => a.1 = d.1 ∧ d.2.Takes (Json.lookup d.1 fields) a.2) form args

variable {form : Form} {fields : List (String × Json)}

theorem ofFields?_eq_some {args : Arguments} : form.ofFields? fields = some args ↔ form.Takes fields args := by
  rw [ofFields?, mapM_eq_some, Takes]
  have hfield (d : String × ArgumentKind) (a : String × Argument) :
      (d.2.find? d.1 fields).map (fun a => (d.1, a)) = some a ↔
        a.1 = d.1 ∧ d.2.Takes (Json.lookup d.1 fields) a.2 := by
    rw [Option.map_eq_some_iff, ← find?_eq_some]
    constructor
    · rintro ⟨b, hb, rfl⟩
      exact ⟨rfl, hb⟩
    · rintro ⟨hname, ha⟩
      exact ⟨a.2, ha, Prod.ext hname.symm rfl⟩
  exact ⟨List.Forall₂.imp fun d a => (hfield d a).1, List.Forall₂.imp fun d a => (hfield d a).2⟩

theorem ofFields?_congr {others : List (String × Json)} (h : ∀ d ∈ form, d.2.find? d.1 others = d.2.find? d.1 fields) :
    form.ofFields? others = form.ofFields? fields :=
  mapM_congr (List.forall₂_same.2 fun d hd => congrArg (Option.map fun a => (d.1, a)) (h d hd))

theorem ofFields?_eq_none :
    form.ofFields? fields = none ↔ ∃ d ∈ form, ∃ v, Json.lookup d.1 fields = some v ∧ ¬d.2.Fits v := by
  simp only [ofFields?, mapM_eq_none, Option.map_eq_none_iff, find?_eq_none]

end Form

/-- A record that the reader of arguments takes up again once it is written: no key stands twice in it or in a record in
it, no whole number has too many digits, and not too many values stand one inside another. -/
structure Passable (fields : List (String × Json)) : Prop where
  readable : Json.Readable .arguments (.record fields)
  height : (Json.Value.record fields : Json).height ≤ Json.Rules.arguments.depth + 1

/-! ## Records that are alike -/

theorem textOf?_alike {v u : Json} (h : Alike v u) : textOf? v = textOf? u := by cases h <;> rfl

theorem ArgumentKind.ofJson?_alike (kind : ArgumentKind) {v u : Json} (h : Alike v u) :
    kind.ofJson? v = kind.ofJson? u := by
  cases kind with
  | text => rw [ofJson?, ofJson?, textOf?_alike h]
  | texts =>
    cases h with
    | list hitems => rw [ofJson?, ofJson?, mapM_congr (hitems.imp fun _ _ => textOf?_alike)]
    | _ => rfl

theorem Form.ofJson?_alike (form : Form) {v u : Json} (h : Alike v u) : form.ofJson? v = form.ofJson? u := by
  cases h with
  | @record fs gs hfields =>
    have hfind (kind : ArgumentKind) (name : String) : kind.find? name fs = kind.find? name gs := by
      have hvalues := hfields name
      unfold ArgumentKind.find?
      generalize Json.lookup name fs = v? at hvalues ⊢
      generalize Json.lookup name gs = u? at hvalues ⊢
      cases hvalues with
      | none => rfl
      | some hvalue => exact kind.ofJson?_alike hvalue
    exact ofFields?_congr fun d _ => hfind d.2 d.1
  | _ => rfl

/-! ## Texts of arguments -/

theorem Form.read_of_readArguments (form : Form) {s : String} {v : Json} (h : Json.readArguments s = some v) :
    form.read s = form.ofJson? v := by
  have hs : s.isEmpty = false := by
    rw [String.isEmpty_eq_false_iff]
    rintro rfl
    cases h
  rw [read, hs, h]
  rfl

theorem Form.read_escaped (form : Form) {v : Json} (h : v.Readable .arguments)
    (hheight : v.height ≤ Json.Rules.arguments.depth + 1) :
    form.read (Json.escaped (Json.loose v)) = form.ofJson? v := by
  obtain ⟨u, hread, halike⟩ := h.readArguments_escaped hheight
  rw [form.read_of_readArguments hread, form.ofJson?_alike halike]

/-! ## Running a tool -/

theorem named?_name (t : Tool) : named? t.name = some t := by cases t <;> decide

/-- A tool looks at the text of its arguments only through its form. -/
theorem execute_congr (c : Caller) {t : Tool} {raw raw' : String} (h : ∀ form : Form, form.read raw = form.read raw') :
    t.execute c raw = t.execute c raw' := by
  simp only [execute, h]

end Tool

/-! ## Requests -/

namespace Http

/-- A body gives a record of arguments: it is one, or it is none or null and there are no arguments. -/
def Gives (body : Option String) (fields : List (String × Json)) : Prop :=
  readBody body = .ok (some (Json.loose (.record fields))) ∨
    fields = [] ∧ (readBody body = .ok none ∨ readBody body = .ok (some .null))

theorem take_of_gives {body : Option String} {fields : List (String × Json)} (h : Gives body fields) (name : String) :
    ∃ b, readBody body = .ok b ∧ (Route.tool name).take b = .ok (.arguments (Json.loose (.record fields))) := by
  rcases h with h | ⟨rfl, h | h⟩
  · exact ⟨_, h, rfl⟩
  · exact ⟨_, h, rfl⟩
  · exact ⟨_, h, rfl⟩

theorem resolve_tool (t : Tool) : resolve "POST" (decodePath ("/mcp/tools/" ++ t.name)) = .found (.tool t.name) := by
  cases t <;> decide +kernel

variable {services : Services} {user : Int} {header body : Option String} {fields : List (String × Json)}

theorem answer_tool (settings : Chat.Turn.Settings) (t : Tool) (path : String) (hstores : services.stores = true)
    (huser : userOf? (plainHeader header) = some user) (hbody : Gives body fields) :
    answer services settings (.tool t.name) ⟨"POST", path, header, body⟩ =
      runTool services user t.name (Json.loose (.record fields)) := by
  obtain ⟨b, hread, htake⟩ := take_of_gives hbody t.name
  have hreads : (if (Route.tool t.name).readsBody then readBody body else .ok none) = .ok b := hread
  have hcaller : (if (Route.tool t.name).isOpen then .ok 0 else caller (plainHeader header)) = .ok user := by
    rw [caller, huser]
    rfl
  have hready : services.ready (.tool t.name) = .ok () := by rw [Services.ready, Services.needStore, if_pos hstores]
  exact answer_checked settings (r := ⟨"POST", path, header, body⟩) hreads hcaller hready htake

theorem runTool_ok {t : Tool} {v : LooseJson} {w w' : World} {text : String}
    (h : Tool.run { user := user, indexed := services.index } t.name (Json.escaped v) w = (.ok text, w')) :
    runTool services user t.name v w = (.ok ⟨200, .json (.record [("result", .text text)])⟩, w') := by
  simp only [runTool, Tool.named?_name]
  exact Attempt.bind_run_ok h

/-- A request that calls a tool runs it on its body, written out, and answers with the text that comes of it. -/
theorem serve_tool (settings : Chat.Turn.Settings) (t : Tool) (hstores : services.stores = true)
    (huser : userOf? (plainHeader header) = some user) (hbody : Gives body fields) {w w' : World} {text : String}
    (hrun : Tool.run { user := user, indexed := services.index } t.name (Json.escaped (Json.loose (.record fields))) w =
      (.ok text, w')) :
    serve services settings ⟨"POST", "/mcp/tools/" ++ t.name, header, body⟩ w =
      (.ok ⟨200, .json (.record [("result", .text text)])⟩, w') := by
  rw [serve_found services settings (r := ⟨"POST", "/mcp/tools/" ++ t.name, header, body⟩) (resolve_tool t),
    answer_tool settings t _ hstores huser hbody, Attempt.settle_bind_run, runTool_ok hrun]
  rfl

/-- **A tool called from outside means what the JSON of the call says.**  Let a record of arguments be given that the
reader of arguments can take up.  Once it is written out, every form takes from it the value of each declared field, and
nothing where there is no such field; it takes nothing at all exactly if a declared field holds a value of another kind,
and other fields never matter.  So a request that calls a tool with it is answered with the text that the agent gets for
any text that is read as a record alike, and it leaves the world as that call does. -/
theorem calls_mean_their_json {fields : List (String × Json)} (hfields : Tool.Passable fields) :
    (∀ form : Tool.Form,
      (∀ args, form.read (Json.escaped (Json.loose (.record fields))) = some args ↔ form.Takes fields args) ∧
      (form.read (Json.escaped (Json.loose (.record fields))) = none ↔
        ∃ d ∈ form, ∃ v, Json.lookup d.1 fields = some v ∧ ¬d.2.Fits v) ∧
      ∀ others, Tool.Passable others → (∀ d ∈ form, Json.lookup d.1 others = Json.lookup d.1 fields) →
        form.read (Json.escaped (Json.loose (.record others))) =
          form.read (Json.escaped (Json.loose (.record fields)))) ∧
    ∀ (t : Tool) (services : Services) (settings : Chat.Turn.Settings) (user : Int) (header body : Option String)
      (raw : String) (v : Json) (w : World), services.stores = true → userOf? (plainHeader header) = some user →
      Gives body fields → Json.readArguments raw = some v → Json.Alike (.record fields) v →
      ∃ text w',
        (Tool.registry { user := user, indexed := services.index }).dispatch (.text t.name) (.text raw) w =
          (.ok text, w') ∧
        serve services settings ⟨"POST", "/mcp/tools/" ++ t.name, header, body⟩ w =
          (.ok ⟨200, .json (.record [("result", .text text)])⟩, w') := by
  have hread {fs : List (String × Json)} (hfs : Tool.Passable fs) (form : Tool.Form) :
      form.read (Json.escaped (Json.loose (.record fs))) = form.ofFields? fs :=
    form.read_escaped hfs.readable hfs.height
  constructor
  · intro form
    refine ⟨fun args => ?_, ?_, fun others hothers hsame => ?_⟩
    · rw [hread hfields, Tool.Form.ofFields?_eq_some]
    · rw [hread hfields, Tool.Form.ofFields?_eq_none]
    · rw [hread hfields, hread hothers]
      exact Tool.Form.ofFields?_congr fun d hd => by rw [Tool.ArgumentKind.find?, hsame d hd, Tool.ArgumentKind.find?]
  · intro t services settings user header body raw v w hstores huser hbody hraw halike
    -- Either text comes down to the fields: the one as it was read, the other as it was written.
    have hforms (form : Tool.Form) :
        form.read raw = form.read (Json.escaped (Json.loose (.record fields))) := by
      rw [form.read_of_readArguments hraw, ← form.ofJson?_alike halike, hread hfields]
      rfl
    obtain ⟨text, w', hdispatch⟩ := Tool.Registry.dispatch_ok
      (Tool.registry { user := user, indexed := services.index }) (.text t.name) (.text raw) w
    refine ⟨text, w', hdispatch, serve_tool settings t hstores huser hbody ?_⟩
    rw [Tool.dispatch_registry] at hdispatch
    rw [← hdispatch, Tool.run, Tool.run, Tool.named?_name, Option.map_some, Option.map_some,
      Tool.execute_congr _ hforms]

/-- The arguments of a new note, with a field that the tool does not declare. -/
def spokenFields : List (String × Json) :=
  [("content", .text "naïve 😀"), ("extra", .list [.record [("content", .int (-7))], .null])]

/-- A body that spells the characters as they are. -/
def spokenBody : String := "\x7b\"content\":\"naïve 😀\",\"extra\":[\x7b\"content\":-7\x7d,null]\x7d"

/-- A text of the same arguments in another order, with the characters spelled out. -/
def spokenText : String :=
  "\x7b\"extra\": [\x7b\"content\": -7\x7d, null], \"content\": \"na\\u00efve \\ud83d\\ude00\"\x7d"

/-- A world without notes. -/
def quietWorld : World :=
  World.fresh 5 (.fresh .empty ⟨fun _ _ => .ok [[]], 0⟩ 0) (.fresh (.always "") (.always "") (.always ""))

theorem comesBack_spoken (style : Json.Style) {rules : Json.Rules} (h : rules.isTooLong true false 1 = false) :
    ∀ g ∈ spokenFields, Json.ComesBack id style rules g.2 := by
  have hextra : Json.ComesBack id style rules (.list [.record [("content", .int (-7))], .null]) :=
    .list (by simpa using ⟨.record (by decide) (by simpa using Json.comesBack_int h id style), .null⟩)
  simpa [spokenFields] using ⟨.text _, hextra⟩

theorem readBody_spoken : readBody (some spokenBody) = .ok (some (Json.loose (.record spokenFields))) := by
  have hwritten : (Json.loose (.record spokenFields)).write .frame = spokenBody.toList := by decide +kernel
  have hchars : bodyChars spokenBody = some spokenBody.toList := by decide +kernel
  have hempty : spokenBody.isEmpty = false := by decide +kernel
  have hread : Json.readChars .body spokenBody.toList = .ok (Json.loose (.record spokenFields)) := by
    rw [← hwritten]
    exact (Json.ComesBack.record (by decide) (comesBack_spoken .frame rfl)).readChars_write Json.Style.marks_frame
      (by decide)
  simp only [readBody, hempty, hchars, Option.map_some, hread, Bool.false_eq_true, if_false]

theorem calls_mean_their_json_spoken :
    Tool.Passable spokenFields ∧ userOf? (plainHeader (some "1")) = some 1 ∧ Gives (some spokenBody) spokenFields ∧
    Json.readArguments spokenText = some (.record spokenFields.reverse) ∧
    Json.Alike (.record spokenFields) (.record spokenFields.reverse) ∧
    Tool.Form.content.read (Json.escaped (Json.loose (.record spokenFields))) =
      some [("content", .text "naïve 😀")] ∧
    ∃ text w',
      (Tool.registry { user := 1, indexed := true }).dispatch (.text Tool.createNote.name) (.text spokenText)
        quietWorld = (.ok text, w') ∧
      serve {} {} ⟨"POST", "/mcp/tools/" ++ Tool.createNote.name, some "1", some spokenBody⟩ quietWorld =
        (.ok ⟨200, .json (.record [("result", .text text)])⟩, w') := by
  have hpassable : Tool.Passable spokenFields := by
    refine ⟨.record (by decide) ?_, by decide⟩
    have hextra : Json.Readable .arguments (.list [.record [("content", .int (-7))], .null]) :=
      .list (by simpa using ⟨.record (by decide) (by simpa using .int (by decide)), .null⟩)
    simpa [spokenFields] using ⟨.text _, hextra⟩
  have huser : userOf? (plainHeader (some "1")) = some 1 := by decide +kernel
  have hraw : Json.readArguments spokenText = some (.record spokenFields.reverse) := by
    have hreversed : Json.ComesBack id .escaped .arguments (.record spokenFields.reverse) :=
      .record (by decide) fun g hg => comesBack_spoken .escaped rfl g (List.mem_reverse.1 hg)
    have hwritten : spokenText.toList = (Json.loose (.record spokenFields.reverse)).write .escaped := by decide +kernel
    exact hreversed.readArguments Json.Style.marks_escaped (by decide) hwritten
  have halike : Json.Alike (.record spokenFields) (.record spokenFields.reverse) := by
    have hlookup (key : String) : Json.lookup key spokenFields.reverse = Json.lookup key spokenFields := by
      by_cases hkey : "content" = key
      · subst hkey
        rfl
      · have hne : ("content" == key) = false := by simpa using hkey
        simp [spokenFields, Json.lookup, hne]
    have hself : Json.Alike (.record spokenFields) (.record spokenFields) := hpassable.readable.alike_onReals id
    cases hself with
    | record hfields =>
      refine .record fun key => ?_
      rw [hlookup]
      exact hfields key
  obtain ⟨hforms, hcalls⟩ := calls_mean_their_json hpassable
  exact ⟨hpassable, huser, .inl readBody_spoken, hraw, halike,
    ((hforms .content).1 _).2 (.cons ⟨rfl, .text _⟩ .nil),
    hcalls .createNote {} {} 1 (some "1") (some spokenBody) spokenText _ quietWorld rfl huser (.inl readBody_spoken)
      hraw halike⟩

end Http
end NoteAgent
