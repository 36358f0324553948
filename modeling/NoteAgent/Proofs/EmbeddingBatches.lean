import Mathlib.Algebra.Group.Int.Defs
import NoteAgent.Proofs.ListTraversal
import NoteAgent.Vector.Remote
/-!
# EmbeddingBatches — how texts are batched does not tell in their embeddings

Texts are posted in batches that together are the texts, none empty and none longer than asked for.  Where the service
answers each text with numbers of its own, the embedding of a list of texts is that of each text, whatever the size of the
batches (`embedBatches_serves`).  A whole number may be too large to be taken as a real one; then the embedding fails, and
it fails for every size (`embed_sizes`).  An answer with another status than 200 ends it, and nothing is posted after it.
-/
namespace NoteAgent
namespace Vector
namespace Remote

open Attempt (Ends)

/-! ## Batches -/

theorem flatten_batches {size : Nat} (hsize : size ≠ 0) (texts : List String) : (batches size texts).flatten = texts := by
  induction texts using batches.induct size with
  | case1 texts hdone =>
    obtain rfl := hdone.resolve_left hsize
    simp [batches]
  | case2 texts hmore ih => rw [batches, dif_neg hmore, List.flatten_cons, ih, List.take_append_drop]

theorem mem_batches {size : Nat} {batch : List String} (texts : List String) (h : batch ∈ batches size texts) :
    batch ≠ [] ∧ batch.length ≤ size := by
  induction texts using batches.induct size with
  | case1 texts hdone =>
    rw [batches, dif_pos hdone] at h
    cases h
  | case2 texts hmore ih =>
    rw [batches, dif_neg hmore] at h
    rcases List.mem_cons.1 h with rfl | h
    · exact ⟨fun hnil => hmore (List.take_eq_nil_iff.1 hnil), List.length_take_le _ _⟩
    · exact ih h

/-! ## Results that are there or too large -/

/-- There is a result just if `P`; otherwise a whole number was too large. -/
def ThereIf {α : Type} (P : Prop) (r : Except Failure α) : Prop :=
  (P → ∃ a, r = .ok a) ∧ (¬P → r = .error .realTooLarge)

namespace ThereIf

variable {α β : Type} {P Q : Prop} {r : Except Failure α}

theorem congr (h : ThereIf P r) (hPQ : P ↔ Q) : ThereIf Q r := by rwa [ThereIf, ← hPQ]

theorem ok (a : α) : ThereIf True (.ok a : Except Failure α) := ⟨fun _ => ⟨a, rfl⟩, fun h => absurd trivial h⟩

theorem exists_iff (h : ThereIf P r) : (∃ a, r = .ok a) ↔ P := by
  refine ⟨fun ⟨a, ha⟩ => Classical.byContradiction fun hP => ?_, h.1⟩
  cases ha.symm.trans (h.2 hP)

theorem bind {f : α → Except Failure β} (h : ThereIf P r) (hf : ∀ a, ThereIf Q (f a)) : ThereIf (P ∧ Q) (r >>= f) := by
  by_cases hP : P
  · obtain ⟨a, rfl⟩ := h.1 hP
    exact (hf a).congr (and_iff_right hP).symm
  · refine ⟨fun hPQ => absurd hPQ.1 hP, fun _ => ?_⟩
    rw [h.2 hP]
    rfl

theorem mapM {P : α → Prop} {f : α → Except Failure β} (hf : ∀ a, ThereIf (P a) (f a)) :
    ∀ as : List α, ThereIf (∀ a ∈ as, P a) (as.mapM f)
  | [] => (ok []).congr (by simp)
  | a :: as => by
    rw [List.mapM_cons]
    refine ((hf a).bind fun b => (mapM hf as).bind fun bs => ok (b :: bs)).congr ?_
    rw [and_true, List.forall_mem_cons]

end ThereIf

/-! ## Numbers -/

namespace Number

def json : Number → Json
  | .int n => .int n
  | .real x => .real x

/-- A real number can hold it: a whole number is not too large. -/
def Fits : Number → Prop
  | .int n => (Numeral.ofInt n).isFinite = true
  | .real _ => True

instance (n : Number) : Decidable n.Fits :=
  match n with
  | .int _ => inferInstanceAs (Decidable (_ = true))
  | .real _ => inferInstanceAs (Decidable True)

theorem toReal_thereIf : ∀ n : Number, ThereIf n.Fits n.toReal
  | .int n => ⟨fun h => ⟨Numeral.ofInt n, if_pos h⟩, fun h => if_neg h⟩
  | .real x => .ok x

theorem numberOf_json : ∀ n : Number, numberOf n.json = .ok n
  | .int _ => rfl
  | .real _ => rfl

theorem real_add (x : Float) : ∀ n : Number, (Number.real x).add n = n.toReal >>= fun y => .ok (.real (x + y))
  | .int _ => rfl
  | .real _ => rfl

theorem int_add_real (n : Int) (x : Float) : (Number.int n).add (.real x) = (Number.int n).toReal >>= fun y =>
    .ok (.real (y + x)) := rfl

end Number

/-- The sum of the squares of the whole numbers that come first. -/
def leadingSquares : List Number → Int
  | .int n :: ns => n * n + leadingSquares ns
  | _ => 0

/-- The numbers from the first real one on. -/
def fromFirstReal : List Number → List Number
  | .int _ :: ns => fromFirstReal ns
  | ns => ns

/-- **The numbers can be divided by their length**: real numbers can hold the whole ones and the sum of the squares of those
that come first, which is exact, and the square of each one that comes later. -/
structure Measurable (ns : List Number) : Prop where
  leading : (Number.int (leadingSquares ns)).Fits
  later : ∀ n ∈ fromFirstReal ns, n.square.Fits
  each : ∀ n ∈ ns, n.Fits

theorem measurable_iff {ns : List Number} : Measurable ns ↔
    ((Number.int (leadingSquares ns)).Fits ∧ ∀ n ∈ fromFirstReal ns, n.square.Fits) ∧ ∀ n ∈ ns, n.Fits :=
  ⟨fun h => ⟨⟨h.leading, h.later⟩, h.each⟩, fun h => ⟨h.1.1, h.1.2, h.2⟩⟩

instance (ns : List Number) : Decidable (Measurable ns) := decidable_of_iff _ measurable_iff.symm

theorem sumOfSquares_cons (sum n : Number) (ns : List Number) :
    sumOfSquares sum ((n :: ns).map Number.json) = sum.add n.square >>= (sumOfSquares · (ns.map Number.json)) := by
  rw [List.map_cons, sumOfSquares, Number.numberOf_json]
  rfl

theorem sumOfSquares_real : ∀ (ns : List Number) (x : Float),
    ThereIf (∀ n ∈ ns, n.square.Fits) (sumOfSquares (.real x) (ns.map Number.json) >>= Number.toReal)
  | [], x => (ThereIf.ok x).congr (by simp)
  | n :: ns, x => by
    rw [sumOfSquares_cons, Number.real_add, bind_assoc, bind_assoc, List.forall_mem_cons]
    exact n.square.toReal_thereIf.bind fun y => sumOfSquares_real ns (x + y)

/-- Whole numbers are summed exactly as long as no real one has come. -/
theorem sumOfSquares_int : ∀ (ns : List Number) (sum : Int),
    ThereIf ((Number.int (sum + leadingSquares ns)).Fits ∧ ∀ n ∈ fromFirstReal ns, n.square.Fits)
      (sumOfSquares (.int sum) (ns.map Number.json) >>= Number.toReal)
  | [], sum => (Number.toReal_thereIf (.int sum)).congr (by simp [leadingSquares, fromFirstReal])
  | .int n :: ns, sum => by
    have ih := sumOfSquares_int ns (sum + n * n)
    rw [Int.add_assoc] at ih
    exact ih
  | .real x :: ns, sum => by
    rw [sumOfSquares_cons, Number.square, Number.int_add_real, bind_assoc, bind_assoc]
    refine ((Number.toReal_thereIf (.int sum)).bind fun y => sumOfSquares_real ns (y + x * x)).congr ?_
    simp [leadingSquares, fromFirstReal, Number.square, Number.Fits]

/-- The list of numbers that an answer holds for a text. -/
def listed (ns : List Number) : Json := .list (ns.map Number.json)

theorem lengthOf_thereIf (ns : List Number) :
    ThereIf ((Number.int (leadingSquares ns)).Fits ∧ ∀ n ∈ fromFirstReal ns, n.square.Fits)
      (lengthOf (ns.map Number.json)) := by
  have hsum := sumOfSquares_int ns 0
  rw [Int.zero_add] at hsum
  rw [lengthOf, ← bind_assoc]
  exact (hsum.bind fun total => .ok _).congr (and_iff_left trivial)

/-- **A list of numbers can be divided by its length just if it is measurable.** -/
theorem unit_thereIf (ns : List Number) : ThereIf (Measurable ns) (unit (listed ns)) := by
  have hitems (length : Float) : ThereIf (∀ n ∈ ns, n.Fits)
      ((ns.map Number.json).mapM fun v => do return (← (← numberOf v).toReal) / length) := by
    rw [List.mapM_map]
    refine .mapM (fun n => ?_) ns
    rw [Function.comp, Number.numberOf_json]
    exact (n.toReal_thereIf.bind fun x => .ok (x / length)).congr (and_iff_left trivial)
  exact ((lengthOf_thereIf ns).bind hitems).congr measurable_iff.symm

/-! ## Posts -/

def Service.posted (s : Service) (batch : List String) : Service := { s with posts := s.posts ++ [batch] }

/-- A batch is posted, and if its answer is good the next ones are. -/
theorem embedBatches_cons (batch : List String) (bs : List (List String)) (s : Service) :
    embedBatches (batch :: bs) s = match (s.answers s.posts.length batch).read with
      | .ok vs => ((embedBatches bs (s.posted batch)).1.map (vs ++ ·), (embedBatches bs (s.posted batch)).2)
      | .error e => (.error e, s.posted batch) := by
  change (Attempt.ofExcept (s.answers s.posts.length batch).read >>= fun vs =>
    (vs ++ ·) <$> embedBatches bs) (s.posted batch) = _
  cases (s.answers s.posts.length batch).read with
  | ok vs => exact (Attempt.bind_run_ok rfl).trans (Attempt.map_run _ _ _)
  | error e => rfl

/-- Every post is answered with status 200 and a list that holds, for each text, the numbers that are its vector. -/
structure Serves (vector : String → List Number) (s : Service) : Prop where
  status : ∀ n texts, (s.answers n texts).status = 200
  lists : ∀ n texts, (s.answers n texts).json = .list (texts.map fun t => listed (vector t))

variable {vector : String → List Number} {s : Service}

theorem Serves.read (h : Serves vector s) (n : Nat) {texts : List String} (hne : texts ≠ []) :
    (s.answers n texts).read = texts.mapM fun t => unit (listed (vector t)) := by
  have hvectors : vectorsOf (s.answers n texts).json = texts.map fun t => listed (vector t) := by
    rw [h.lists]
    cases texts with
    | nil => exact absurd rfl hne
    | cons t ts => rfl
  rw [Answer.read, h.status, hvectors, List.mapM_map]
  rfl

/-- **What is embedded in batches is each text by itself.** -/
theorem embedBatches_serves : ∀ (bs : List (List String)) (s : Service), Serves vector s → (∀ b ∈ bs, b ≠ []) →
    Ends (embedBatches bs) s fun r s' => r = bs.flatten.mapM (fun t => unit (listed (vector t))) ∧
      ∀ vs, r = .ok vs → s'.posts = s.posts ++ bs
  | [], s, _, _ => ⟨rfl, fun _ _ => (List.append_nil _).symm⟩
  | b :: bs, s, hs, hne => by
    obtain ⟨hb, hbs⟩ := List.forall_mem_cons.1 hne
    obtain ⟨hresult, hposts⟩ := embedBatches_serves bs (s.posted b) ⟨hs.status, hs.lists⟩ hbs
    rw [Ends, embedBatches_cons, hs.read _ hb, List.flatten_cons, List.mapM_append]
    cases b.mapM fun t => unit (listed (vector t)) with
    | error e => exact ⟨rfl, fun _ h => by cases h⟩
    | ok vs =>
      dsimp only
      rw [hresult] at hposts ⊢
      cases hrest : bs.flatten.mapM fun t => unit (listed (vector t)) with
      | error e => exact ⟨rfl, fun _ h => by cases h⟩
      | ok vs' =>
        refine ⟨rfl, fun _ _ => ?_⟩
        rw [hposts vs' hrest, Service.posted, List.append_assoc]
        rfl

theorem Answer.status_of_read {a : Answer} {vs : List Embedding} (h : a.read = .ok vs) : a.status = 200 := by
  unfold Answer.read at h
  repeat' split at h
  · cases h
  · cases h
  · cases h
  · rename_i hstatus
    simpa using hstatus

/-- **An answer with another status ends the embedding**: it fails, and that post is the last. -/
theorem embedBatches_stops : ∀ (bs : List (List String)) (s : Service), Ends (embedBatches bs) s fun r s' =>
    ∃ made, s'.posts = s.posts ++ made ∧ made <+: bs ∧ ∀ j batch, made[j]? = some batch →
      (s.answers (s.posts.length + j) batch).status ≠ 200 → (∃ e, r = .error e) ∧ made.length = j + 1
  | [], s => ⟨[], (List.append_nil _).symm, List.prefix_rfl, fun j batch h => by simp at h⟩
  | b :: bs, s => by
    rw [Ends, embedBatches_cons]
    cases hread : (s.answers s.posts.length b).read with
    | error e =>
      refine ⟨[b], rfl, by simp, fun j batch h _ => ?_⟩
      obtain ⟨hj, -⟩ := List.getElem?_eq_some_iff.1 h
      exact ⟨⟨e, rfl⟩, by simp at hj ⊢; omega⟩
    | ok vs =>
      have hgood := Answer.status_of_read hread
      obtain ⟨made, hposts, hmade, hstops⟩ := embedBatches_stops bs (s.posted b)
      refine ⟨b :: made, ?_, List.cons_prefix_cons.2 ⟨rfl, hmade⟩, ?_⟩
      · rw [hposts, Service.posted, List.append_assoc]
        rfl
      · rintro (_ | j) batch h hstatus
        · cases h
          exact absurd hgood hstatus
        · have hplace : (s.posted b).posts.length + j = s.posts.length + (j + 1) := by
            simp [Service.posted]
            omega
          rw [← hplace] at hstatus
          obtain ⟨⟨e, he⟩, hlength⟩ := hstops j batch h hstatus
          exact ⟨⟨e, by rw [he]; rfl⟩, congrArg (· + 1) hlength⟩

/-! ## Embedding -/

variable {key : String} {size : Int}

theorem embed_eq (hkey : key ≠ "") (hsize : 1 ≤ size) (texts : List String) :
    embed key size texts = embedBatches (batches size.toNat texts) := by
  cases texts with
  | nil => simp [embed, batches, embedBatches]
  | cons t ts =>
    have hzero : (size == 0) = false := by
      simp only [beq_eq_false_iff_ne]
      omega
    rw [embed, if_neg (by simp), if_neg (by simpa using hkey), hzero]
    rfl

/-- With a key, the result is each text by itself. -/
theorem embed_serves (hs : Serves vector s) (hkey : key ≠ "") (hsize : 1 ≤ size) (texts : List String) :
    Ends (embed key size texts) s fun r s' => r = texts.mapM (fun t => unit (listed (vector t))) ∧
      ∀ vs, r = .ok vs → s'.posts = s.posts ++ batches size.toNat texts := by
  have hends := embedBatches_serves (batches size.toNat texts) s hs fun b hb => (mem_batches texts hb).1
  rwa [flatten_batches (by omega), ← embed_eq hkey hsize] at hends

/-- Without a key, only no texts at all can be embedded. -/
theorem embed_keyless (size : Int) (texts : List String) (s : Service) :
    embed "" size texts s = (if texts = [] then .ok [] else .error .embeddingKeyMissing, s) := by
  unfold embed
  cases texts <;> rfl

theorem embed_stops (key : String) (hsize : 1 ≤ size) (texts : List String) (s : Service) :
    Ends (embed key size texts) s fun r s' => ∃ made, s'.posts = s.posts ++ made ∧ ∀ j batch, made[j]? = some batch →
      (s.answers (s.posts.length + j) batch).status ≠ 200 → (∃ e, r = .error e) ∧ made.length = j + 1 := by
  by_cases hkey : key = ""
  · rw [hkey, Ends, embed_keyless]
    exact ⟨[], (List.append_nil _).symm, fun j batch h => by simp at h⟩
  · rw [embed_eq hkey hsize]
    exact (embedBatches_stops _ s).mono fun _ _ ⟨made, hposts, _, hstops⟩ => ⟨made, hposts, hstops⟩

/-- Texts are embedded just if there are none, or there is a key and the numbers of each can be divided by their length. -/
theorem embed_ok_iff (hs : Serves vector s) (hsize : 1 ≤ size) (texts : List String) :
    (∃ vs, (embed key size texts s).1 = .ok vs) ↔ texts = [] ∨ key ≠ "" ∧ ∀ t ∈ texts, Measurable (vector t) := by
  by_cases hkey : key = ""
  · rw [hkey, embed_keyless]
    by_cases htexts : texts = [] <;> simp [htexts]
  · rw [(embed_serves hs hkey hsize texts).1, (ThereIf.mapM (fun t => unit_thereIf (vector t)) texts).exists_iff]
    refine ⟨fun h => .inr ⟨hkey, h⟩, ?_⟩
    rintro (rfl | ⟨-, h⟩)
    · exact List.forall_mem_nil _
    · exact h

theorem embed_error (hs : Serves vector s) (hsize : 1 ≤ size) {texts : List String} {e : Failure}
    (he : (embed key size texts s).1 = .error e) : e = if key = "" then .embeddingKeyMissing else .realTooLarge := by
  by_cases hkey : key = ""
  · subst hkey
    rw [embed_keyless] at he
    by_cases htexts : texts = [] <;> simp [htexts] at he
    exact he.symm
  · have hthere := ThereIf.mapM (fun t => unit_thereIf (vector t)) texts
    rw [(embed_serves hs hkey hsize texts).1] at he
    rw [if_neg hkey]
    refine Except.error.inj (he.symm.trans (hthere.2 fun h => ?_))
    obtain ⟨vs, hvs⟩ := hthere.1 h
    cases he.symm.trans hvs

/-- What is embedded is each text by itself, in batches that together are the texts. -/
theorem embed_vectors (hs : Serves vector s) (hsize : 1 ≤ size) {texts : List String} {vs : List Embedding}
    (hvs : (embed key size texts s).1 = .ok vs) :
    List.Forall₂ (fun t v => unit (listed (vector t)) = .ok v) texts vs ∧
    ∃ made, (embed key size texts s).2.posts = s.posts ++ made ∧ made.flatten = texts ∧
      ∀ batch ∈ made, batch ≠ [] ∧ batch.length ≤ size := by
  by_cases hkey : key = ""
  · subst hkey
    rw [embed_keyless] at hvs ⊢
    by_cases htexts : texts = [] <;> simp [htexts] at hvs
    subst htexts hvs
    exact ⟨.nil, [], (List.append_nil _).symm, rfl, List.forall_mem_nil _⟩
  · obtain ⟨hresult, hposts⟩ := embed_serves hs hkey hsize texts
    refine ⟨mapM_eq_ok.1 (hresult.symm.trans hvs), _, hposts vs hvs, flatten_batches (by omega) texts, fun batch hbatch => ?_⟩
    obtain ⟨hne, hlength⟩ := mem_batches texts hbatch
    exact ⟨hne, by omega⟩

/-- **How texts are batched does not tell in their embeddings.**  Of a service that answers each text with numbers of its
own, any two sizes of the batches get the same: one vector for each text, in the order of the texts, if the numbers of each
can be divided by their length, and otherwise the failure that a whole number is too large.  The batches posted are the
texts, none is empty, and none is longer than the size.  And of any service, an answer with a status other than 200 makes
it fail, with no post after it. -/
theorem embed_sizes (vector : String → List Number) (s : Service) (hs : Serves vector s) (key : String)
    (texts : List String) (size size' : Int) (hsize : 1 ≤ size) (hsize' : 1 ≤ size') :
    (embed key size texts s).1 = (embed key size' texts s).1 ∧
    ((∃ vs, (embed key size texts s).1 = .ok vs) ↔ texts = [] ∨ key ≠ "" ∧ ∀ t ∈ texts, Measurable (vector t)) ∧
    (∀ e, (embed key size texts s).1 = .error e → e = if key = "" then .embeddingKeyMissing else .realTooLarge) ∧
    (∀ vs, (embed key size texts s).1 = .ok vs →
      List.Forall₂ (fun t v => unit (listed (vector t)) = .ok v) texts vs ∧
      ∃ made, (embed key size texts s).2.posts = s.posts ++ made ∧ made.flatten = texts ∧
        ∀ batch ∈ made, batch ≠ [] ∧ batch.length ≤ size) ∧
    ∀ s' : Service, ∃ made, (embed key size texts s').2.posts = s'.posts ++ made ∧
      ∀ j batch, made[j]? = some batch → (s'.answers (s'.posts.length + j) batch).status ≠ 200 →
        (∃ e, (embed key size texts s').1 = .error e) ∧ made.length = j + 1 := by
  refine ⟨?_, embed_ok_iff hs hsize texts, fun _ => embed_error hs hsize, fun _ => embed_vectors hs hsize,
    embed_stops key hsize texts⟩
  by_cases hkey : key = ""
  · rw [hkey, embed_keyless, embed_keyless]
  · exact (embed_serves hs hkey hsize texts).1.trans (embed_serves hs hkey hsize' texts).1.symm

/-- Each text is answered with its number of characters and a half. -/
def countedTexts : Service :=
  ⟨fun _ texts => ⟨200, "", .list (texts.map fun t => listed [.int t.length, .real 0.5])⟩, []⟩

theorem embed_sizes_countedTexts :
    Serves (fun t => [.int t.length, .real 0.5]) countedTexts ∧ (1 : Int) ≤ 1 ∧ (1 : Int) ≤ 2 ∧
    ∃ vs, (embed "k" 1 ["one", "two", "three"] countedTexts).1 = .ok vs ∧
      (embed "k" 2 ["one", "two", "three"] countedTexts).1 = .ok vs ∧ vs.length = 3 := by
  have hserves : Serves (fun t => [.int t.length, .real 0.5]) countedTexts := ⟨fun _ _ => rfl, fun _ _ => rfl⟩
  obtain ⟨hsame, hmeasured, -, hvectors, -⟩ :=
    embed_sizes _ countedTexts hserves "k" ["one", "two", "three"] 1 2 (by decide) (by decide)
  obtain ⟨vs, hvs⟩ := hmeasured.2 (.inr ⟨by decide, by decide +kernel⟩)
  exact ⟨hserves, by decide, by decide, vs, hvs, hsame.symm.trans hvs, (hvectors vs hvs).1.length_eq.symm⟩

/-- Every text is answered with one whole number that no real number can hold. -/
def vastNumbers : Service := ⟨fun _ texts => ⟨200, "", .list (texts.map fun _ => listed [.int (10 ^ 400)])⟩, []⟩

/-- **A numeric list cannot always be divided by its length**: a whole number may be too large for a real one. -/
theorem vast_number_fails :
    Serves (fun _ => [.int (10 ^ 400)]) vastNumbers ∧
    (embed "k" 1 ["a"] vastNumbers).1 = .error .realTooLarge ∧ ∀ vs, (embed "k" 1 ["a"] vastNumbers).1 ≠ .ok vs := by
  have hserves : Serves (fun _ => [.int (10 ^ 400)]) vastNumbers := ⟨fun _ _ => rfl, fun _ _ => rfl⟩
  have hlarge : ¬Measurable [.int (10 ^ 400)] := by decide +kernel
  have hkey : "k" ≠ "" := by decide
  have hresult := (embed_serves hserves hkey (Int.le_refl 1) ["a"]).1
  have hfailed : (embed "k" 1 ["a"] vastNumbers).1 = .error .realTooLarge :=
    hresult.trans ((ThereIf.mapM (fun _ => unit_thereIf _) ["a"]).2 fun h => hlarge (h "a" (List.mem_singleton_self _)))
  exact ⟨hserves, hfailed, fun vs hvs => by cases hfailed.symm.trans hvs⟩

end Remote
end Vector
end NoteAgent
