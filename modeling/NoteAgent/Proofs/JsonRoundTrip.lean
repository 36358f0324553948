import Mathlib.Data.List.Basic
import Mathlib.Order.MinMax
import NoteAgent.Proofs.NumberText
/-!
# JsonRoundTrip — what is written is read back

The reader undoes the escape of each character, the two halves of a pair included, so it reads each text as it was
(`stringFrom_write`).  A value whose numbers come back comes back whole, in any place where its height is let stand
(`ComesBack.reads`).  A value without numbers does so in either style, and what is written of it holds no line break
(`Numberless.printed`).  In the escaped style whole numbers come back if they are not too long, and real numbers as real
numbers (`Readable.comesBack_escaped`).
-/
namespace NoteAgent
namespace Json

/-! ## Texts -/

theorem hex4?_hex {n : Nat} (h : n < 0x10000) :
    ∃ a b c d, Text.hex 4 n = [a, b, c, d] ∧ hex4? a b c d = some n := by
  refine ⟨_, _, _, _, rfl, ?_⟩
  have hdigit (m : Nat) : Text.hexValue? (Text.hexDigit (m % 16)) = some (m % 16) :=
    Text.hexValue?_hexDigit (Nat.mod_lt m (by decide))
  simp only [hex4?, hdigit, Option.bind_eq_bind, Option.bind_some, Option.pure_def, Nat.pow_eq, Option.some.injEq]
  omega

theorem stringFrom_spelled {n : Nat} (h : n < 0x10000) (acc : List Piece) (r : List Char) :
    stringFrom acc (spelled n ++ r) = stringFrom (push (pieceOf n) acc) r := by
  obtain ⟨a, b, c, d, hhex, hread⟩ := hex4?_hex h
  simp [spelled, hhex, stringFrom, hread]

theorem pieceOf_toNat (c : Char) : pieceOf c.toNat = .char c := by
  have hvalid : ¬(c.toNat - 0xD800 < 2048 ∧ 0xD800 ≤ c.toNat) := by
    rcases c.valid with h | ⟨h, -⟩ <;> simp only [Char.toNat] at * <;> omega
  rw [pieceOf, dif_neg hvalid, Char.ofNat_toNat]

theorem pieceOf_half {n : Nat} (h : n < 2048) : pieceOf (0xD800 + n) = .half ⟨n, h⟩ := by
  simp [pieceOf, h]

theorem push_high {n : Nat} (h : n < 1024) (acc : List Piece) :
    push (.half ⟨n, by omega⟩) acc = .half ⟨n, by omega⟩ :: acc := by
  unfold push
  split
  · next heq =>
    cases heq
    have hlow : ¬1024 ≤ n := by omega
    simp [hlow]
  · rfl

theorem push_low {high low : Nat} (hhigh : high < 1024) (hlow : low < 1024) (acc : List Piece) :
    push (.half ⟨1024 + low, by omega⟩) (.half ⟨high, by omega⟩ :: acc) =
      .char (Char.ofNat (0x10000 + high * 1024 + low)) :: acc := by
  simp [push, hhigh]

theorem stringFrom_pair {c : Char} (h : 0x10000 ≤ c.toNat) (acc : List Piece) (r : List Char) :
    stringFrom acc (spelled (0xD800 + (c.toNat - 0x10000) / 1024) ++
      spelled (0xDC00 + (c.toNat - 0x10000) % 1024) ++ r) = stringFrom (.char c :: acc) r := by
  have hc : c.toNat < 0x110000 := by
    rcases c.valid with h | ⟨-, h⟩ <;> simp only [Char.toNat] at * <;> omega
  generalize hhigh : (c.toNat - 0x10000) / 1024 = high
  generalize hlow : (c.toNat - 0x10000) % 1024 = low
  have hchar : 0x10000 + high * 1024 + low = c.toNat := by omega
  have hsum : 0xDC00 + low = 0xD800 + (1024 + low) := by omega
  have hhighs : high < 1024 := by omega
  have hlows : low < 1024 := by omega
  rw [List.append_assoc, stringFrom_spelled (by omega), stringFrom_spelled (by omega), hsum, pieceOf_half (by omega),
    pieceOf_half (by omega), push_high hhighs, push_low hhighs hlows, hchar, Char.ofNat_toNat]

theorem stringFrom_plain {c : Char} (hquote : c ≠ '"') (hslash : c ≠ '\\') (hlow : ¬c.toNat < 0x20)
    (acc : List Piece) (r : List Char) : stringFrom acc (c :: r) = stringFrom (.char c :: acc) r := by
  rw [stringFrom, if_neg] <;> simp_all

theorem stringFrom_escape {c d : Char} (hplain : d ≠ 'u') (h : escape? d = some c) (acc : List Piece) (r : List Char) :
    stringFrom acc (['\\', d] ++ r) = stringFrom (.char c :: acc) r := by
  rw [List.cons_append, List.cons_append, List.nil_append, stringFrom, h]
  intro _ _ _ _ _ hu
  exact absurd hu hplain

/-- How a character is written: after a backslash, by its number, by the numbers of a pair, or as it is. -/
inductive Written (c : Char) : List Char → Prop
  | escaped {d : Char} (plain : d ≠ 'u') (printed : 0x20 ≤ d.toNat) (escape : escape? d = some c) : Written c ['\\', d]
  | spelled (short : c.toNat < 0x10000) : Written c (spelled c.toNat)
  | pair (long : 0x10000 ≤ c.toNat) :
    Written c (spelled (0xD800 + (c.toNat - 0x10000) / 1024) ++ spelled (0xDC00 + (c.toNat - 0x10000) % 1024))
  | plain (quote : c ≠ '"') (slash : c ≠ '\\') (printed : 0x20 ≤ c.toNat) : Written c [c]

theorem written_writeChar (plainOnly : Bool) (c : Char) : Written c (writeChar plainOnly c) := by
  have hescaped {d e : Char} (hc : (c == e) = true) (hplain : d ≠ 'u') (hprinted : 0x20 ≤ d.toNat)
      (h : escape? d = some e) : Written c ['\\', d] := .escaped hplain hprinted (beq_iff_eq.1 hc ▸ h)
  unfold writeChar
  split
  next hc => exact hescaped hc (by decide) (by decide) rfl
  next hquote =>
  split
  next hc => exact hescaped hc (by decide) (by decide) rfl
  next hslash =>
  split
  next hc => exact hescaped hc (by decide) (by decide) rfl
  split
  next hc => exact hescaped hc (by decide) (by decide) rfl
  split
  next hc => exact hescaped hc (by decide) (by decide) rfl
  split
  next hc => exact hescaped hc (by decide) (by decide) rfl
  split
  next hc => exact hescaped hc (by decide) (by decide) rfl
  split
  next hlow => exact .spelled (by omega)
  next hlow =>
  split
  · split
    next hshort => exact .spelled hshort
    next hlong => exact .pair (by omega)
  · exact .plain (by simpa using hquote) (by simpa using hslash) (by omega)

theorem stringFrom_writeChar (plainOnly : Bool) (c : Char) (acc : List Piece) (r : List Char) :
    stringFrom acc (writeChar plainOnly c ++ r) = stringFrom (.char c :: acc) r := by
  have hwritten := written_writeChar plainOnly c
  generalize writeChar plainOnly c = cs at hwritten ⊢
  cases hwritten with
  | escaped hplain _ h => exact stringFrom_escape hplain h acc r
  | spelled hshort =>
    rw [stringFrom_spelled hshort, pieceOf_toNat]
    rfl
  | pair hlong => exact stringFrom_pair hlong acc r
  | plain hquote hslash hprinted => exact stringFrom_plain hquote hslash (by omega) acc r

theorem stringFrom_write (plainOnly : Bool) (s : String) (r : List Char) :
    stringFrom [] ((pieces s).flatMap (writePiece plainOnly) ++ '"' :: r) = some (pieces s, r) := by
  have hall (cs : List Char) (acc : List Piece) :
      stringFrom acc ((cs.map Piece.char).flatMap (writePiece plainOnly) ++ '"' :: r) =
        some (acc.reverse ++ cs.map Piece.char, r) := by
    induction cs generalizing acc with
    | nil => simp [stringFrom]
    | cons c cs ih => simp [writePiece, stringFrom_writeChar, ih]
  exact hall s.toList []

/-! ## Values -/

theorem skip_spaces (n : Nat) (cs : List Char) : skip (List.replicate n ' ' ++ cs) = skip cs :=
  List.dropWhile_append_of_pos fun c hc => by rw [(List.mem_replicate.1 hc).2]; rfl

theorem skip_of_not_blank {c : Char} (h : isBlank c = false) (cs : List Char) : skip (c :: cs) = c :: cs := by
  simp [skip, h]

theorem value_spaces (rules : Rules) (fuel depth n : Nat) (cs : List Char) :
    value rules fuel depth (List.replicate n ' ' ++ cs) = value rules fuel depth cs := by
  cases fuel with
  | zero => rfl
  | succ fuel => rw [value, value, skip_spaces]

theorem items_spaces (rules : Rules) (fuel depth n : Nat) (acc : List LooseJson) (cs : List Char) :
    items rules fuel depth acc (List.replicate n ' ' ++ cs) = items rules fuel depth acc cs := by
  cases fuel with
  | zero => rfl
  | succ fuel => rw [items, items, value_spaces]

theorem fields_spaces (rules : Rules) (fuel depth n : Nat) (acc : List (List Piece × LooseJson)) (cs : List Char) :
    fields rules fuel depth acc (List.replicate n ' ' ++ cs) = fields rules fuel depth acc cs := by
  cases fuel with
  | zero => rfl
  | succ fuel => rw [fields, fields, skip_spaces]

/-- A field as it stands in what is read. -/
def looseField (f : String × Json) : List Piece × LooseJson := (pieces f.1, loose f.2)

theorem loose_list (vs : List Json) : loose (.list vs) = .list (vs.map loose) := by
  have hitems : Value.mapItems pieces vs = vs.map loose := by
    induction vs with
    | nil => rfl
    | cons v vs ih => rw [Value.mapItems, ih, List.map_cons, loose]
  rw [loose, Value.map, hitems]

theorem loose_record (fs : List (String × Json)) : loose (.record fs) = .record (fs.map looseField) := by
  have hfields : Value.mapFields pieces fs = fs.map looseField := by
    induction fs with
    | nil => rfl
    | cons f fs ih => rw [Value.mapFields, ih, List.map_cons, looseField, loose]
  rw [loose, Value.map, hfields]

/-- The text of a field without what parts it from the others. -/
def fieldText (style : Style) (f : String × Json) : List Char :=
  writeString style.plainOnly (pieces f.1) ++ style.colon.toList ++ (loose f.2).write style

theorem write_record (style : Style) (f : String × Json) (fs : List (String × Json)) :
    (loose (.record (f :: fs))).write style =
      '\x7b' :: (fieldText style f ++ Value.writeFields style (fs.map looseField)) := by
  simp [loose_record, looseField, Value.write, fieldText]

theorem value_text (rules : Rules) (style : Style) (fuel depth : Nat) (s : String) (r : List Char) :
    value rules (fuel + 1) depth ((loose (.text s)).write style ++ r) = .ok (loose (.text s), r) := by
  have hskip : skip ((loose (.text s)).write style ++ r) =
      '"' :: ((pieces s).flatMap (writePiece style.plainOnly) ++ '"' :: r) := by
    simp [loose, Value.map, Value.write, writeString, skip, isBlank]
  simp only [value, hskip, stringFrom_write]
  rfl

/-- A style sets a comma and a colon, with spaces after them at most. -/
structure Style.Marks (style : Style) : Prop where
  comma : ∃ n, style.comma.toList = ',' :: List.replicate n ' '
  colon : ∃ n, style.colon.toList = ':' :: List.replicate n ' '

theorem Style.marks_frame : Style.frame.Marks := ⟨⟨0, rfl⟩, ⟨0, rfl⟩⟩

theorem Style.marks_escaped : Style.escaped.Marks := ⟨⟨1, rfl⟩, ⟨1, rfl⟩⟩

/-- What the style writes of `v` is read as `u`, whatever stands after it that does not go on with a number. -/
def ReadsAs (style : Style) (rules : Rules) (v : Json) (u : LooseJson) : Prop :=
  ∀ fuel depth r, Stops r → ((loose v).write style).length ≤ fuel → depth + v.height ≤ rules.depth + 1 →
    value rules fuel depth ((loose v).write style ++ r) = .ok (u, r)

variable {style : Style} {rules : Rules}

theorem items_write (hstyle : style.Marks) (as : Json → LooseJson) {v : Json} {vs : List Json}
    (hreads : ∀ w ∈ v :: vs, ReadsAs style rules w (as w)) {fuel depth : Nat} (acc : List LooseJson) (r : List Char)
    (hfuel : ((loose v).write style ++ Value.writeItems style (vs.map loose)).length ≤ fuel)
    (hdepth : ∀ w ∈ v :: vs, depth + w.height ≤ rules.depth + 1) :
    items rules fuel depth acc ((loose v).write style ++ Value.writeItems style (vs.map loose) ++ r) =
      .ok (.list (acc.reverse ++ (v :: vs).map as), r) := by
  obtain ⟨hv, hvs⟩ := List.forall_mem_cons.1 hreads
  obtain ⟨hdepthv, hdepths⟩ := List.forall_mem_cons.1 hdepth
  obtain ⟨n, hcomma⟩ := hstyle.comma
  rw [List.append_assoc]
  induction vs generalizing v fuel acc with
  | nil =>
    simp only [List.map_nil, Value.writeItems, List.length_append, List.length_singleton] at hfuel
    obtain ⟨fuel, rfl⟩ : ∃ m, fuel = m + 1 := ⟨fuel - 1, by omega⟩
    have hstops : Stops (Value.writeItems style [] ++ r) := stops_cons rfl (by decide) (by decide) (by decide) _
    rw [items, List.map_nil, hv fuel depth _ hstops (by omega) hdepthv]
    simp [Value.writeItems, skip, isBlank]
  | cons w vs ih =>
    simp only [List.map_cons, Value.writeItems, hcomma, List.length_append, List.length_cons] at hfuel
    obtain ⟨fuel, rfl⟩ : ∃ m, fuel = m + 1 := ⟨fuel - 1, by omega⟩
    have htail : Value.writeItems style ((w :: vs).map loose) ++ r =
        ',' :: (List.replicate n ' ' ++ ((loose w).write style ++ (Value.writeItems style (vs.map loose) ++ r))) := by
      simp [Value.writeItems, hcomma]
    obtain ⟨hw, hws⟩ := List.forall_mem_cons.1 hvs
    obtain ⟨hdepthw, hdepthws⟩ := List.forall_mem_cons.1 hdepths
    rw [htail, items, hv fuel depth _ (stops_cons rfl (by decide) (by decide) (by decide) _) (by omega) hdepthv]
    simp only [skip_of_not_blank (c := ',') rfl, items_spaces rules fuel depth n]
    refine (ih hvs (as v :: acc) ?_ hdepths hw hws hdepthw hdepthws).trans (by simp)
    rw [List.length_append]
    omega

theorem put_of_new {S α : Type} [BEq S] [LawfulBEq S] {key : S} {fs : List (S × α)} (v : α)
    (h : key ∉ fs.map Prod.fst) : put key v fs = fs ++ [(key, v)] := by
  induction fs with
  | nil => rfl
  | cons f fs ih =>
    simp only [List.map_cons, List.mem_cons, not_or] at h
    have hne : (f.1 == key) = false := by simpa using Ne.symm h.1
    simp [put, hne, ih h.2]

theorem pieces_injective : Function.Injective pieces := fun s t h => by
  have hlist := List.map_injective_iff.2 (fun a b hab => Piece.char.inj hab) h
  exact String.toList_inj.1 hlist

/-- A field as it is read, its value as `as` has it. -/
def fieldAs (as : Json → LooseJson) (f : String × Json) : List Piece × LooseJson := (pieces f.1, as f.2)

theorem fields_next (hstyle : style.Marks) {f : String × Json} {u : LooseJson}
    (hread : ReadsAs style rules f.2 u) {fuel depth : Nat} (hfuel : (fieldText style f).length ≤ fuel)
    (hdepth : depth + f.2.height ≤ rules.depth + 1) (acc : List (List Piece × LooseJson)) (r : List Char) :
    fields rules (fuel + 1) depth acc (fieldText style f ++ ',' :: r) =
        fields rules fuel depth (put (pieces f.1) u acc) r ∧
      fields rules (fuel + 1) depth acc (fieldText style f ++ '\x7d' :: r) =
        .ok (.record (put (pieces f.1) u acc), r) := by
  obtain ⟨n, hcolon⟩ := hstyle.colon
  have hopen (tail : List Char) : skip (fieldText style f ++ tail) =
      '"' :: ((pieces f.1).flatMap (writePiece style.plainOnly) ++
        '"' :: (':' :: (List.replicate n ' ' ++ ((loose f.2).write style ++ tail)))) := by
    simp [fieldText, writeString, hcolon, skip, isBlank]
  have hvalue (tail : List Char) (hstops : Stops tail) :
      value rules fuel depth (List.replicate n ' ' ++ ((loose f.2).write style ++ tail)) = .ok (u, tail) := by
    rw [value_spaces rules fuel depth n]
    exact hread fuel depth tail hstops (by simp [fieldText] at hfuel; omega) hdepth
  constructor
  · have hmore := hvalue (',' :: r) (stops_cons rfl (by decide) (by decide) (by decide) r)
    simp only [fields, hopen, stringFrom_write, skip_of_not_blank (c := ':') rfl, hmore,
      skip_of_not_blank (c := ',') rfl]
  · have hlast := hvalue ('\x7d' :: r) (stops_cons rfl (by decide) (by decide) (by decide) r)
    simp only [fields, hopen, stringFrom_write, skip_of_not_blank (c := ':') rfl, hlast,
      skip_of_not_blank (c := '\x7d') rfl]

theorem fields_write (hstyle : style.Marks) (as : Json → LooseJson) {f : String × Json} {fs : List (String × Json)}
    (hreads : ∀ g ∈ f :: fs, ReadsAs style rules g.2 (as g.2)) (hkeys : ((f :: fs).map Prod.fst).Nodup)
    {fuel depth : Nat} (acc : List (List Piece × LooseJson)) (r : List Char)
    (hfuel : (fieldText style f ++ Value.writeFields style (fs.map looseField)).length ≤ fuel)
    (hdepth : ∀ g ∈ f :: fs, depth + g.2.height ≤ rules.depth + 1)
    (hnew : ∀ g ∈ f :: fs, pieces g.1 ∉ acc.map Prod.fst) :
    fields rules fuel depth acc (fieldText style f ++ Value.writeFields style (fs.map looseField) ++ r) =
      .ok (.record (acc ++ (f :: fs).map (fieldAs as)), r) := by
  obtain ⟨n, hcomma⟩ := hstyle.comma
  rw [List.append_assoc]
  induction fs generalizing f fuel acc with
  | nil =>
    simp only [List.map_nil, Value.writeFields, List.length_append, List.length_singleton] at hfuel
    obtain ⟨fuel, rfl⟩ : ∃ m, fuel = m + 1 := ⟨fuel - 1, by omega⟩
    have hshort : (fieldText style f).length ≤ fuel := by omega
    have hlast := (fields_next hstyle (hreads f (by simp)) hshort (hdepth f (by simp)) acc r).2
    rw [put_of_new _ (hnew f (by simp))] at hlast
    exact hlast
  | cons g fs ih =>
    have htail : Value.writeFields style ((g :: fs).map looseField) =
        ',' :: (List.replicate n ' ' ++ (fieldText style g ++ Value.writeFields style (fs.map looseField))) := by
      simp [Value.writeFields, looseField, fieldText, hcomma]
    rw [htail] at hfuel ⊢
    simp only [List.length_append, List.length_cons] at hfuel
    obtain ⟨fuel, rfl⟩ : ∃ m, fuel = m + 1 := ⟨fuel - 1, by omega⟩
    -- The keys so far are those before in the list, so the next field has a new one and goes to the end.
    have hput : put (pieces f.1) (as f.2) acc = acc ++ [fieldAs as f] := put_of_new _ (hnew f (by simp))
    have hmore : ∀ h ∈ g :: fs, pieces h.1 ∉ (acc ++ [fieldAs as f]).map Prod.fst := by
      intro h hh
      have hne : h.1 ≠ f.1 := fun heq => (List.nodup_cons.1 hkeys).1 (heq ▸ List.mem_map_of_mem hh)
      simp [fieldAs, hnew h (List.mem_cons_of_mem _ hh), pieces_injective.ne hne]
    rw [List.cons_append, (fields_next hstyle (hreads f (by simp)) (by omega) (hdepth f (by simp)) acc _).1, hput]
    simp only [List.append_assoc, fields_spaces rules fuel depth n]
    refine (ih (List.forall_mem_cons.1 hreads).2 (List.nodup_cons.1 hkeys).2 (acc ++ [fieldAs as f]) ?_
      (List.forall_mem_cons.1 hdepth).2 hmore).trans (by simp)
    rw [List.length_append]
    omega

theorem height_pos (v : Json) : 1 ≤ v.height := by cases v <;> simp [Value.height]

theorem height_le_of_mem {vs : List Json} {v : Json} (h : v ∈ vs) : v.height ≤ Value.heightOfItems vs := by
  induction vs with
  | nil => cases h
  | cons w vs ih =>
    rw [Value.heightOfItems]
    rcases List.mem_cons.1 h with rfl | h
    · exact le_max_left _ _
    · exact le_max_of_le_right (ih h)

theorem height_le_of_mem_fields {fs : List (String × Json)} {f : String × Json} (h : f ∈ fs) :
    f.2.height ≤ Value.heightOfFields fs := by
  induction fs with
  | nil => cases h
  | cons g fs ih =>
    rw [Value.heightOfFields]
    rcases List.mem_cons.1 h with rfl | h
    · exact le_max_left _ _
    · exact le_max_of_le_right (ih h)

theorem allows_of_height {depth : Nat} {v : Json} (h : depth + 1 + v.height ≤ rules.depth + 1) :
    rules.allows depth = true := by
  have hpos := height_pos v
  simp only [Rules.allows, decide_eq_true_eq]
  omega

theorem value_list {fuel depth : Nat} {c : Char} {cs : List Char} (hallows : rules.allows depth = true)
    (hblank : isBlank c = false) (hclose : c ≠ ']') :
    value rules (fuel + 1) depth ('[' :: c :: cs) = items rules fuel (depth + 1) [] (c :: cs) := by
  simp [value, skip_of_not_blank hblank, skip_of_not_blank (c := '[') rfl, hclose, hallows]

theorem value_record {fuel depth : Nat} {c : Char} {cs : List Char} (hallows : rules.allows depth = true)
    (hblank : isBlank c = false) (hclose : c ≠ '\x7d') :
    value rules (fuel + 1) depth ('\x7b' :: c :: cs) = fields rules fuel (depth + 1) [] (c :: cs) := by
  simp [value, skip_of_not_blank hblank, skip_of_not_blank (c := '\x7b') rfl, hclose, hallows]

/-! ## What comes back -/

mutual
/-- The value with `f` done to every real number in it. -/
def Value.onReals {S : Type} (f : Float → Float) : Value S → Value S
  | .real x => .real (f x)
  | .list items => .list (Value.onRealsOfItems f items)
  | .record fields => .record (Value.onRealsOfFields f fields)
  | v => v
def Value.onRealsOfItems {S : Type} (f : Float → Float) : List (Value S) → List (Value S)
  | [] => []
  | v :: vs => Value.onReals f v :: Value.onRealsOfItems f vs
def Value.onRealsOfFields {S : Type} (f : Float → Float) : List (S × Value S) → List (S × Value S)
  | [] => []
  | (k, v) :: fs => (k, Value.onReals f v) :: Value.onRealsOfFields f fs
end

theorem onReals_list {S : Type} (f : Float → Float) (vs : List (Value S)) :
    (Value.list vs).onReals f = .list (vs.map (Value.onReals f)) := by
  have hitems : Value.onRealsOfItems f vs = vs.map (Value.onReals f) := by
    induction vs with
    | nil => rfl
    | cons v vs ih => rw [Value.onRealsOfItems, ih, List.map_cons]
  rw [Value.onReals, hitems]

theorem onReals_record {S : Type} (f : Float → Float) (fs : List (S × Value S)) :
    (Value.record fs).onReals f = .record (fs.map fun g => (g.1, g.2.onReals f)) := by
  have hfields : Value.onRealsOfFields f fs = fs.map fun g => (g.1, g.2.onReals f) := by
    induction fs with
    | nil => rfl
    | cons g fs ih => rw [Value.onRealsOfFields, ih, List.map_cons]
  rw [Value.onReals, hfields]

/-- A text starts with something that is neither blank nor the end of a list. -/
def Opens (cs : List Char) : Prop := ∃ c r, cs = c :: r ∧ isBlank c = false ∧ c ≠ ']'

/-- What starts so has a character, so a step is left to read it. -/
theorem Opens.readsAs {v : Json} {u : LooseJson} (h : Opens ((loose v).write style))
    (hsucc : ∀ fuel depth r, Stops r → ((loose v).write style).length ≤ fuel + 1 →
      depth + v.height ≤ rules.depth + 1 →
        value rules (fuel + 1) depth ((loose v).write style ++ r) = .ok (u, r)) : ReadsAs style rules v u := by
  intro fuel depth r hr hfuel hdepth
  obtain ⟨c, cs, hwritten, -⟩ := h
  obtain _ | fuel := fuel
  · simp [hwritten] at hfuel
  · exact hsucc fuel depth r hr hfuel hdepth

/-- A value whose numbers come back, each real number `x` as `f x`, and in whose records no key stands twice. -/
inductive ComesBack (f : Float → Float) (style : Style) (rules : Rules) : Json → Prop
  | null : ComesBack f style rules .null
  | bool (b : Bool) : ComesBack f style rules (.bool b)
  | int {n : Int} (opens : Opens ((loose (.int n)).write style)) (reads : ReadsAs style rules (.int n) (.int n)) :
    ComesBack f style rules (.int n)
  | real {x : Float} (opens : Opens ((loose (.real x)).write style))
    (reads : ReadsAs style rules (.real x) (.real (f x))) : ComesBack f style rules (.real x)
  | text (s : String) : ComesBack f style rules (.text s)
  | list {vs : List Json} (items : ∀ v ∈ vs, ComesBack f style rules v) : ComesBack f style rules (.list vs)
  | record {fs : List (String × Json)} (keys : (fs.map Prod.fst).Nodup)
    (fields : ∀ g ∈ fs, ComesBack f style rules g.2) : ComesBack f style rules (.record fs)

namespace ComesBack

variable {f : Float → Float} {v : Json}

theorem opens (h : ComesBack f style rules v) : Opens ((loose v).write style) := by
  cases h with
  | null => exact ⟨_, _, rfl, by decide⟩
  | bool b => cases b <;> exact ⟨_, _, rfl, by decide⟩
  | int hopens | real hopens => exact hopens
  | text s => exact ⟨_, _, rfl, by decide⟩
  | @list vs => cases vs <;> exact ⟨_, _, rfl, by decide⟩
  | @record fs => cases fs <;> exact ⟨_, _, rfl, by decide⟩

/-- **A value whose numbers come back is read as it was written**, by any reader that lets it stand so high. -/
theorem reads (h : ComesBack f style rules v) (hstyle : style.Marks) : ReadsAs style rules v (loose (v.onReals f)) := by
  induction h with
  | null => exact Opens.readsAs ⟨_, _, rfl, by decide⟩ fun _ _ _ _ _ _ => rfl
  | bool b => cases b <;> exact Opens.readsAs ⟨_, _, rfl, by decide⟩ fun _ _ _ _ _ _ => rfl
  | int _ hreads => exact hreads
  | real _ hreads => exact hreads
  | text s =>
    exact Opens.readsAs ⟨_, _, rfl, by decide⟩ fun fuel depth r _ _ _ => value_text rules style fuel depth s r
  | @list vs hvs ih =>
    refine (ComesBack.list hvs).opens.readsAs fun fuel depth r _ hfuel hdepth => ?_
    cases vs with
    | nil => rfl
    | cons v vs =>
      have hheight : (Value.list (v :: vs) : Json).height = Value.heightOfItems (v :: vs) + 1 := rfl
      have hbelow (w : Json) (hw : w ∈ v :: vs) : depth + 1 + w.height ≤ rules.depth + 1 := by
        have hle := height_le_of_mem hw
        omega
      rw [loose_list, List.map_cons, Value.write] at hfuel ⊢
      -- The bracket takes one step and one level, and the items are read with what is left of both.
      have hitems := items_write hstyle (fun w => loose (w.onReals f)) ih [] r (Nat.le_of_succ_le_succ hfuel) hbelow
      obtain ⟨c, cs, hwritten, hblank, hclose⟩ := (hvs v (by simp)).opens
      simp only [hwritten, List.cons_append, List.append_assoc] at hitems ⊢
      rw [value_list (allows_of_height (hbelow v (by simp))) hblank hclose, hitems, onReals_list, loose_list,
        List.map_map]
      rfl
  | @record fs hkeys hfs ih =>
    refine (ComesBack.record hkeys hfs).opens.readsAs fun fuel depth r _ hfuel hdepth => ?_
    cases fs with
    | nil => rfl
    | cons g fs =>
      have hheight : (Value.record (g :: fs) : Json).height = Value.heightOfFields (g :: fs) + 1 := rfl
      have hbelow (h : String × Json) (hh : h ∈ g :: fs) : depth + 1 + h.2.height ≤ rules.depth + 1 := by
        have hle := height_le_of_mem_fields hh
        omega
      rw [write_record] at hfuel ⊢
      have hfields := fields_write hstyle (fun w => loose (w.onReals f)) ih hkeys [] r
        (Nat.le_of_succ_le_succ hfuel) hbelow (by simp)
      have hopen : fieldText style g = '"' :: (fieldText style g).tail := rfl
      rw [hopen] at hfields ⊢
      simp only [List.cons_append, List.append_assoc] at hfields ⊢
      rw [value_record (allows_of_height (hbelow g (by simp))) rfl (by decide), hfields, onReals_record, loose_record,
        List.map_map]
      rfl

theorem readChars_write (h : ComesBack f style rules v) (hstyle : style.Marks) (hheight : v.height ≤ rules.depth + 1) :
    readChars rules ((loose v).write style) = .ok (loose (v.onReals f)) := by
  have hread := h.reads hstyle (((loose v).write style).length + 1) 0 [] stops_nil (by omega) (by omega)
  rw [List.append_nil] at hread
  rw [readChars, hread]
  rfl

end ComesBack

/-! ## Plain text -/

mutual
theorem map?_map : ∀ v : Json, Value.map? text? (Value.map pieces v) = some v
  | .null | .bool _ | .int _ | .real _ => rfl
  | .text s => by rw [Value.map, Value.map?, text?_pieces, Option.map_some]
  | .list vs => by rw [Value.map, Value.map?, mapItems?_mapItems vs, Option.map_some]
  | .record fs => by rw [Value.map, Value.map?, mapFields?_mapFields fs, Option.map_some]
theorem mapItems?_mapItems : ∀ vs : List Json, Value.mapItems? text? (Value.mapItems pieces vs) = some vs
  | [] => rfl
  | v :: vs => by simp [Value.mapItems, Value.mapItems?, map?_map v, mapItems?_mapItems vs]
theorem mapFields?_mapFields :
    ∀ fs : List (String × Json), Value.mapFields? text? (Value.mapFields pieces fs) = some fs
  | [] => rfl
  | (k, v) :: fs => by
    simp [Value.mapFields, Value.mapFields?, text?_pieces k, map?_map v, mapFields?_mapFields fs]
end

/-- A value whose texts are of characters is plain as it is. -/
theorem plain?_loose (v : Json) : (loose v).plain? = some v := map?_map v

/-- What is written of a value is read as that value where a model writes its arguments. -/
theorem ComesBack.readArguments {f : Float → Float} {v : Json} {s : String} (h : ComesBack f style .arguments v)
    (hstyle : style.Marks) (hheight : v.height ≤ Rules.arguments.depth + 1) (hs : s.toList = (loose v).write style) :
    readArguments s = some (v.onReals f) := by
  rw [Json.readArguments, read, hs, h.readChars_write hstyle hheight]
  exact plain?_loose _

/-! ## Values without numbers -/

/-- A value without a number, in whose records no key stands twice. -/
inductive Numberless : Json → Prop
  | null : Numberless .null
  | bool (b : Bool) : Numberless (.bool b)
  | text (s : String) : Numberless (.text s)
  | list {vs : List Json} (items : ∀ v ∈ vs, Numberless v) : Numberless (.list vs)
  | record {fs : List (String × Json)} (keys : (fs.map Prod.fst).Nodup) (fields : ∀ f ∈ fs, Numberless f.2) :
    Numberless (.record fs)

theorem Numberless.comesBack {v : Json} (h : Numberless v) (f : Float → Float) (style : Style) (rules : Rules) :
    ComesBack f style rules v := by
  induction h with
  | null => exact .null
  | bool b => exact .bool b
  | text s => exact .text s
  | list _ ih => exact .list ih
  | record hkeys _ ih => exact .record hkeys ih

theorem Numberless.onReals {v : Json} (h : Numberless v) (f : Float → Float) : v.onReals f = v := by
  induction h with
  | null => rfl
  | bool b => rfl
  | text s => rfl
  | @list vs _ ih => rw [onReals_list, List.map_congr_left ih, List.map_id']
  | @record fs _ _ ih =>
    have hid : fs.map (fun g => (g.1, g.2.onReals f)) = fs.map id :=
      List.map_congr_left fun g hg => Prod.ext rfl (ih g hg)
    rw [onReals_record, hid, List.map_id]

/-- What is written of a value without numbers is the text of that value and of no other. -/
theorem Numberless.readChars_write {v : Json} (h : Numberless v) (hstyle : style.Marks)
    (hheight : v.height ≤ rules.depth + 1) : readChars rules ((loose v).write style) = .ok (loose v) := by
  have hread := (h.comesBack id style rules).readChars_write hstyle hheight
  rwa [h.onReals] at hread

/-! ## Numbers that come back -/

theorem isBlank_digit {c : Char} (h : c.isDigit = true) : isBlank c = false := by
  simp only [isBlank, Bool.or_eq_false_iff, beq_eq_false_iff_ne]
  refine ⟨⟨⟨?_, ?_⟩, ?_⟩, ?_⟩ <;> rintro rfl <;> cases h

theorem opens_digit {c : Char} (h : c.isDigit = true) (cs : List Char) : Opens (c :: cs) := by
  refine ⟨c, cs, rfl, isBlank_digit h, ?_⟩
  rintro rfl
  cases h

theorem opens_minus (cs : List Char) : Opens ('-' :: cs) := ⟨'-', cs, rfl, by decide⟩

section Digits

variable {fuel depth : Nat} {c : Char}

theorem value_digit (h : c.isDigit = true) (cs : List Char) :
    value rules (fuel + 1) depth (c :: cs) = number rules false (c :: cs) := by
  unfold value
  rw [skip_of_not_blank (isBlank_digit h)]
  split <;> simp_all

theorem value_minus (h : c.isDigit = true) (cs : List Char) :
    value rules (fuel + 1) depth ('-' :: c :: cs) = number rules true (c :: cs) := by
  have hinfinity : c ≠ 'I' := by rintro rfl; cases h
  simp [value, skip_of_not_blank (c := '-') rfl, hinfinity]

end Digits

/-- A whole number comes back if its digits are not too many for the reader. -/
theorem comesBack_int {n : Int} (h : rules.isTooLong (n < 0) false (Nat.toDigits 10 n.natAbs).length = false)
    (f : Float → Float) (style : Style) : ComesBack f style rules (.int n) := by
  have hwritten : (loose (.int n)).write style = (toString n).toList := rfl
  obtain ⟨d, ds, hds, hd⟩ := (digits_toDigits n.natAbs).head
  have hnumber (r : List Char) (hr : Stops r) := number_digits (whole_toDigits n.natAbs) h hr
  rw [ofDigits_toDigits, signed_natAbs, hds] at hnumber
  have hopens : Opens ((loose (.int n)).write style) := by
    rw [hwritten, toList_toString, hds]
    split
    · exact opens_minus _
    · exact opens_digit hd ds
  refine .int hopens (hopens.readsAs fun fuel depth r hr _ _ => ?_)
  rw [hwritten, toList_toString]
  -- The digits are those of the absolute value, after a minus or alone.
  by_cases hn : n < 0
  · rw [decide_eq_true hn] at hnumber
    rw [if_pos hn, hds, List.cons_append, List.cons_append, value_minus hd]
    exact hnumber r hr
  · rw [decide_eq_false hn] at hnumber
    rw [if_neg hn, hds, List.cons_append, value_digit hd]
    exact hnumber r hr

theorem comesBack_of_text {f : Float → Float} {x : Float} {cs : List Char}
    (hwritten : (style.layout.write x).toList = cs) (hopens : Opens cs)
    (hread : ∀ fuel depth r, Stops r → value rules (fuel + 1) depth (cs ++ r) = .ok (.real (f x), r)) :
    ComesBack f style rules (.real x) := by
  have hloose : (loose (.real x)).write style = cs := hwritten
  rw [← hloose] at hopens hread
  exact .real hopens (hopens.readsAs fun fuel depth r hr _ _ => hread fuel depth r hr)

/-- The escaped style writes of a real number what is read as a real number, be it only a name. -/
theorem value_real (x : Float) : ∃ cs y, (Style.escaped.layout.write x).toList = cs ∧ Opens cs ∧
    ∀ rules fuel depth r, Stops r → value rules (fuel + 1) depth (cs ++ r) = .ok (.real y, r) := by
  rcases write_cases (l := Style.escaped.layout) rfl (by decide) x with hname | ⟨cs, hcs, hplain | hminus⟩
  · simp only [List.mem_cons, List.not_mem_nil, or_false] at hname
    rcases hname with h | h | h
    · exact ⟨_, _, congrArg String.toList h, ⟨_, _, rfl, by decide⟩, fun _ _ _ _ _ => rfl⟩
    · exact ⟨_, _, congrArg String.toList h, ⟨_, _, rfl, by decide⟩, fun _ _ _ _ _ => rfl⟩
    · exact ⟨_, _, congrArg String.toList h, ⟨_, _, rfl, by decide⟩, fun _ _ _ _ _ => rfl⟩
  · obtain ⟨y, hy⟩ := hcs.number false
    obtain ⟨d, ds, rfl, hd⟩ := hcs.head
    refine ⟨_, y, hplain, opens_digit hd ds, fun rules fuel depth r hr => ?_⟩
    rw [List.cons_append, value_digit hd]
    exact hy rules r hr
  · obtain ⟨y, hy⟩ := hcs.number true
    obtain ⟨d, ds, rfl, hd⟩ := hcs.head
    refine ⟨_, y, hminus, opens_minus _, fun rules fuel depth r hr => ?_⟩
    rw [List.cons_append, List.cons_append, value_minus hd]
    exact hy rules r hr

/-- In the escaped style every real number comes back as some real number. -/
theorem comesBack_real : ∃ f : Float → Float, ∀ rules x, ComesBack f .escaped rules (.real x) := by
  choose cs f hwritten hopens hread using value_real
  exact ⟨f, fun rules x => comesBack_of_text (hwritten x) (hopens x) (hread x rules)⟩

/-- A value that a reader with these rules takes up again, should it not stand too high: no whole number in it is too
long, and no key stands twice in a record. -/
inductive Readable (rules : Rules) : Json → Prop
  | null : Readable rules .null
  | bool (b : Bool) : Readable rules (.bool b)
  | int {n : Int} (short : rules.isTooLong (n < 0) false (Nat.toDigits 10 n.natAbs).length = false) :
    Readable rules (.int n)
  | real (x : Float) : Readable rules (.real x)
  | text (s : String) : Readable rules (.text s)
  | list {vs : List Json} (items : ∀ v ∈ vs, Readable rules v) : Readable rules (.list vs)
  | record {fs : List (String × Json)} (keys : (fs.map Prod.fst).Nodup) (fields : ∀ g ∈ fs, Readable rules g.2) :
    Readable rules (.record fs)

theorem Readable.comesBack {f : Float → Float} {v : Json} (h : Readable rules v)
    (hreal : ∀ x, ComesBack f style rules (.real x)) : ComesBack f style rules v := by
  induction h with
  | null => exact .null
  | bool b => exact .bool b
  | int hshort => exact comesBack_int hshort f style
  | real x => exact hreal x
  | text s => exact .text s
  | list _ ih => exact .list ih
  | record hkeys _ ih => exact .record hkeys ih

/-- **In the escaped style every readable value comes back**, its real numbers as real numbers. -/
theorem Readable.comesBack_escaped :
    ∃ f : Float → Float, ∀ {rules : Rules} {v : Json}, Readable rules v → ComesBack f .escaped rules v := by
  obtain ⟨f, hf⟩ := comesBack_real
  exact ⟨f, fun h => h.comesBack (hf _)⟩

/-! ## Written text -/

/-- No character of the text stands below the space, so none is a line break. -/
def Printed (cs : List Char) : Prop := ∀ c ∈ cs, 0x20 ≤ c.toNat

theorem Printed.append {cs ds : List Char} (hcs : Printed cs) (hds : Printed ds) : Printed (cs ++ ds) :=
  List.forall_mem_append.2 ⟨hcs, hds⟩

theorem Printed.cons {c : Char} {cs : List Char} (hc : 0x20 ≤ c.toNat) (hcs : Printed cs) : Printed (c :: cs) :=
  List.forall_mem_cons.2 ⟨hc, hcs⟩

theorem printed_spelled (n : Nat) : Printed (spelled n) := by
  have hdigit (m : Nat) : 0x20 ≤ (Text.hexDigit (m % 16)).toNat := by
    have hall : ∀ d ∈ List.range 16, 0x20 ≤ (Text.hexDigit d).toNat := by decide
    exact hall _ (List.mem_range.2 (Nat.mod_lt m (by decide)))
  intro c hc
  simp only [spelled, Text.hex, List.mem_cons, List.not_mem_nil, or_false] at hc
  rcases hc with rfl | rfl | rfl | rfl | rfl | rfl
  · decide
  · decide
  all_goals exact hdigit _

theorem printed_writeChar (plainOnly : Bool) (c : Char) : Printed (writeChar plainOnly c) := by
  have hwritten := written_writeChar plainOnly c
  generalize writeChar plainOnly c = cs at hwritten ⊢
  cases hwritten with
  | escaped _ hprinted => exact .cons (by decide) (.cons hprinted (List.forall_mem_nil _))
  | spelled => exact printed_spelled _
  | pair => exact (printed_spelled _).append (printed_spelled _)
  | plain _ _ hprinted => exact .cons hprinted (List.forall_mem_nil _)

theorem printed_writeString (plainOnly : Bool) (s : String) : Printed (writeString plainOnly (pieces s)) := by
  refine .append (.cons (by decide) fun c hc => ?_) (.cons (by decide) (List.forall_mem_nil _))
  obtain ⟨p, hp, hc⟩ := List.mem_flatMap.1 hc
  obtain ⟨d, -, rfl⟩ := List.mem_map.1 hp
  exact printed_writeChar plainOnly d c hc

theorem printed_spaces (n : Nat) : Printed (List.replicate n ' ') := fun c hc => by
  rw [(List.mem_replicate.1 hc).2]
  decide

theorem Style.Marks.printed (hstyle : style.Marks) : Printed style.comma.toList ∧ Printed style.colon.toList := by
  obtain ⟨⟨m, hcomma⟩, ⟨n, hcolon⟩⟩ := hstyle
  rw [hcomma, hcolon]
  exact ⟨.cons (by decide) (printed_spaces m), .cons (by decide) (printed_spaces n)⟩

theorem printed_writeItems (hstyle : style.Marks) {vs : List Json} (h : ∀ v ∈ vs, Printed ((loose v).write style)) :
    Printed (Value.writeItems style (vs.map loose)) := by
  induction vs with
  | nil => exact .cons (by decide) (List.forall_mem_nil _)
  | cons v vs ih =>
    obtain ⟨hv, hvs⟩ := List.forall_mem_cons.1 h
    exact (hstyle.printed.1.append hv).append (ih hvs)

theorem printed_fieldText (hstyle : style.Marks) {f : String × Json} (h : Printed ((loose f.2).write style)) :
    Printed (fieldText style f) := ((printed_writeString _ f.1).append hstyle.printed.2).append h

theorem printed_writeFields (hstyle : style.Marks) {fs : List (String × Json)}
    (h : ∀ f ∈ fs, Printed ((loose f.2).write style)) : Printed (Value.writeFields style (fs.map looseField)) := by
  induction fs with
  | nil => exact .cons (by decide) (List.forall_mem_nil _)
  | cons f fs ih =>
    obtain ⟨hf, hfs⟩ := List.forall_mem_cons.1 h
    have hfield := (hstyle.printed.1.append (printed_fieldText hstyle hf)).append (ih hfs)
    simpa [Value.writeFields, looseField, fieldText] using hfield

/-- What is written of a value without numbers stands on one line. -/
theorem Numberless.printed {v : Json} (h : Numberless v) (hstyle : style.Marks) :
    Printed ((loose v).write style) := by
  induction h with
  | null => simp [loose, Value.map, Value.write, Printed]
  | bool b => cases b <;> simp [loose, Value.map, Value.write, Printed]
  | text s => exact printed_writeString _ s
  | @list vs hvs ih =>
    rw [loose_list]
    cases vs with
    | nil => simp [Value.write, Printed]
    | cons v vs =>
      obtain ⟨hv, hvs⟩ := List.forall_mem_cons.1 ih
      exact (Printed.cons (by decide) hv).append (printed_writeItems hstyle hvs)
  | @record fs hkeys hfs ih =>
    cases fs with
    | nil => simp [loose, Value.map, Value.mapFields, Value.write, Printed]
    | cons f fs =>
      obtain ⟨hf, hfs⟩ := List.forall_mem_cons.1 ih
      rw [write_record]
      exact .cons (by decide) ((printed_fieldText hstyle hf).append (printed_writeFields hstyle hfs))

end Json
end NoteAgent
