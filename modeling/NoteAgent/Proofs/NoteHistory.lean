import NoteAgent.Note.Use
import NoteAgent.Proofs.NoteListing
import NoteAgent.Proofs.NoteWrites
/-!
# NoteHistory — what a listing shows after any history of the note store

Notes are added, given new content and removed, one after another, and what was done is kept as a list of deeds.  A note
lives if no deed after the one that added it removes it, and it is what the deeds after that one have made of it (`Lives`).
A number of a row is given again once the newest notes are gone, so it says nothing of when a note was added; but in every
state the rows stand in the order in which their notes were added, and their numbers rise (`Follows`).  So a listing shows
the notes that live, and the newest deed first where notes are of equal age (`afterUses_listing`).
-/
namespace NoteAgent
namespace Note

open Attempt (Ends)

/-! ## Deeds -/

/-- What a deed makes of a note that was there before. -/
def Deed.revise (d : Deed) (n : Note) : Note :=
  match d with
  | .replaced uid content now => if n.uid = uid then { n with content := content, updated := now } else n
  | .added _ | .removed _ => n

@[simp] theorem Deed.revise_uid (d : Deed) (n : Note) : (d.revise n).uid = n.uid := by
  cases d with
  | replaced uid content now => rw [revise]; split <;> rfl
  | added _ => rfl
  | removed _ => rfl

@[simp] theorem Deed.revise_created (d : Deed) (n : Note) : (d.revise n).created = n.created := by
  cases d with
  | replaced uid content now => rw [revise]; split <;> rfl
  | added _ => rfl
  | removed _ => rfl

/-- What deeds make of a note, one after another. -/
def revised (n : Note) (ds : List Deed) : Note := ds.foldl (fun n d => d.revise n) n

theorem revised_concat (n : Note) (ds : List Deed) (d : Deed) : n.revised (ds ++ [d]) = d.revise (n.revised ds) := by
  rw [revised, List.foldl_append]
  rfl

@[simp] theorem uid_revised (n : Note) (ds : List Deed) : (n.revised ds).uid = n.uid := by
  induction ds generalizing n with
  | nil => rfl
  | cons d ds ih => exact (ih (d.revise n)).trans (d.revise_uid n)

/-- **A note lives**: the deed in this place added it, no later deed removes it, and the later deeds have made it what it
is. -/
def Lives (ds : List Deed) (i : Nat) (n : Note) : Prop :=
  ∃ made, ds[i]? = some (.added made) ∧ .removed made.uid ∉ ds.drop (i + 1) ∧ n = made.revised (ds.drop (i + 1))

theorem Lives.lt {ds : List Deed} {i : Nat} {n : Note} (h : Lives ds i n) : i < ds.length := by
  obtain ⟨made, hadded, -⟩ := h
  exact (List.getElem?_eq_some_iff.1 hadded).1

theorem not_lives_nil (i : Nat) (n : Note) : ¬Lives [] i n := fun h => absurd h.lt (Nat.not_lt_zero i)

/-- **What one more deed changes**: notes live on as it leaves them, unless it removes them, and a note that it adds lives
in the last place. -/
theorem lives_concat {ds : List Deed} {d : Deed} {i : Nat} {n : Note} : Lives (ds ++ [d]) i n ↔
    (∃ before, Lives ds i before ∧ d ≠ .removed before.uid ∧ n = d.revise before) ∨ i = ds.length ∧ d = .added n := by
  -- the deed in this place comes before the new one, is the new one, or is not there
  rcases Nat.lt_trichotomy i ds.length with hlt | rfl | hgt
  · have hplace : (ds ++ [d])[i]? = ds[i]? := List.getElem?_append_left hlt
    have hlater : (ds ++ [d]).drop (i + 1) = ds.drop (i + 1) ++ [d] := List.drop_append_of_le_length hlt
    have hnot : ¬(i = ds.length ∧ d = .added n) := fun h => by omega
    rw [or_iff_left hnot]
    unfold Lives
    rw [hplace, hlater]
    constructor
    · rintro ⟨made, hadded, hstays, rfl⟩
      rw [List.mem_append, List.mem_singleton, not_or] at hstays
      refine ⟨made.revised (ds.drop (i + 1)), ⟨made, hadded, hstays.1, rfl⟩, ?_, revised_concat _ _ _⟩
      rw [uid_revised]
      exact Ne.symm hstays.2
    · rintro ⟨_, ⟨made, hadded, hstays, rfl⟩, hd, rfl⟩
      rw [uid_revised] at hd
      refine ⟨made, hadded, ?_, (revised_concat _ _ _).symm⟩
      rw [List.mem_append, List.mem_singleton, not_or]
      exact ⟨hstays, Ne.symm hd⟩
  · have hbefore : ¬∃ before, Lives ds ds.length before ∧ d ≠ .removed before.uid ∧ n = d.revise before := by
      rintro ⟨before, hlives, -⟩
      exact absurd hlives.lt (Nat.lt_irrefl _)
    rw [or_iff_right hbefore]
    unfold Lives
    rw [List.getElem?_concat_length, List.drop_eq_nil_of_le (by simp)]
    constructor
    · rintro ⟨made, hadded, -, rfl⟩
      exact ⟨rfl, Option.some.inj hadded⟩
    · rintro ⟨-, rfl⟩
      exact ⟨n, rfl, List.not_mem_nil, rfl⟩
  · constructor
    · intro h
      have := h.lt
      rw [List.length_append, List.length_singleton] at this
      omega
    · rintro (⟨before, hlives, -⟩ | ⟨rfl, -⟩)
      · have := hlives.lt
        omega
      · omega

theorem lives_added {ds : List Deed} {made : Note} {i : Nat} {n : Note} :
    Lives (ds ++ [.added made]) i n ↔ Lives ds i n ∨ i = ds.length ∧ n = made := by
  rw [lives_concat]
  refine or_congr ⟨?_, fun h => ⟨n, h, Deed.noConfusion, rfl⟩⟩ ?_
  · rintro ⟨before, hlives, -, rfl⟩
    exact hlives
  · rw [Deed.added.injEq, eq_comm (a := made)]

theorem lives_replaced {ds : List Deed} {uid content : String} {now : Int} {i : Nat} {n : Note} :
    Lives (ds ++ [.replaced uid content now]) i n ↔
      ∃ before, Lives ds i before ∧ n = (Deed.replaced uid content now).revise before := by
  rw [lives_concat, or_iff_left fun h => Deed.noConfusion h.2]
  refine exists_congr fun before => and_congr_right fun _ => and_iff_right ?_
  exact Deed.noConfusion

theorem lives_removed {ds : List Deed} {uid : String} {i : Nat} {n : Note} :
    Lives (ds ++ [.removed uid]) i n ↔ Lives ds i n ∧ n.uid ≠ uid := by
  rw [lives_concat, or_iff_left fun h => Deed.noConfusion h.2]
  constructor
  · rintro ⟨before, hlives, hne, rfl⟩
    exact ⟨hlives, fun huid => hne (congrArg Deed.removed huid.symm)⟩
  · rintro ⟨hlives, hne⟩
    exact ⟨n, hlives, fun hd => hne (Deed.removed.inj hd).symm, rfl⟩

/-! ## The table -/

namespace Table

variable {t t' : Table} {ds : List Deed}

theorem mem_toList {n : Note} : n ∈ t.toList ↔ ∃ e ∈ t.entries, e.note = n := List.mem_map

theorem Keyed.eq_of_mem (hk : t.Keyed) {a b : Note} (ha : a ∈ t.toList) (hb : b ∈ t.toList) (h : a.uid = b.uid) :
    a = b := by
  obtain ⟨x, hx, rfl⟩ := mem_toList.1 ha
  obtain ⟨y, hy, rfl⟩ := mem_toList.1 hb
  rw [hk.eq_of_uid hx hy h]

theorem toList_insert {n : Note} (h : t.insert n = .ok t') : t'.toList = t.toList ++ [n] := by
  rw [(insert_ok h).2, toList, List.map_append]
  rfl

theorem toList_setContent {uid content : String} {now : Int} (h : t.setContent uid content now = .ok t') :
    t'.toList = t.toList.map (Deed.replaced uid content now).revise := by
  rw [(setContent_ok h).2, toList, List.map_map, toList, List.map_map]
  refine List.map_congr_left fun e _ => ?_
  by_cases huid : e.note.uid = uid <;> simp [Entry.revised, Deed.revise, huid]

theorem toList_erase (t : Table) (uid : String) : (t.erase uid).toList = t.toList.filter (·.uid != uid) := by
  rw [erase, toList, toList, List.filter_map]
  rfl

/-- **The table follows the deeds**: its rows hold the notes that live, in the order in which they were added. -/
structure Follows (ds : List Deed) (t : Table) : Prop where
  sound : t.Sound
  lives : ∀ n ∈ t.toList, ∃ i, Lives ds i n
  holds : ∀ i n, Lives ds i n → n ∈ t.toList
  inOrder : t.toList.Pairwise fun a b => ∀ i j, Lives ds i a → Lives ds j b → i < j

theorem follows_empty : Follows [] .empty :=
  ⟨.empty, fun _ hn => (List.not_mem_nil hn).elim, fun i n h => absurd h (not_lives_nil i n), .nil⟩

namespace Follows

theorem added (h : Follows ds t) {n : Note} (hrun : t.insert n = .ok t') : Follows (ds ++ [.added n]) t' := by
  -- the uid is not in use, so the note is none of those that live, and it is added after them
  have hnew : n ∉ t.toList := fun hn => by
    obtain ⟨e, he, heq⟩ := mem_toList.1 hn
    exact (insert_ok hrun).1 e he (by rw [heq])
  have hold {a : Note} (ha : a ∈ t.toList) {i : Nat} (hlives : Lives (ds ++ [.added n]) i a) : Lives ds i a :=
    (lives_added.1 hlives).resolve_right fun ⟨_, heq⟩ => hnew (by rwa [heq] at ha)
  have hlist := toList_insert hrun
  refine ⟨h.sound.insert hrun, ?_, ?_, ?_⟩ <;> rw [hlist]
  case refine_1 =>
    intro a ha
    rcases List.mem_append.1 ha with ha | ha
    · obtain ⟨i, hi⟩ := h.lives a ha
      exact ⟨i, lives_added.2 (.inl hi)⟩
    · exact ⟨ds.length, lives_added.2 (.inr ⟨rfl, List.mem_singleton.1 ha⟩)⟩
  case refine_2 =>
    intro i a ha
    rcases lives_added.1 ha with ha | ⟨-, rfl⟩
    · exact List.mem_append_left _ (h.holds i a ha)
    · exact List.mem_append_right _ (List.mem_singleton_self a)
  case refine_3 =>
    refine List.pairwise_append.2 ⟨?_, List.pairwise_singleton _ _, ?_⟩
    · exact h.inOrder.imp_of_mem fun ha hb hab i j hi hj => hab i j (hold ha hi) (hold hb hj)
    · intro a ha b hb i j hi hj
      rw [List.mem_singleton.1 hb] at hj
      rcases lives_added.1 hj with hj | ⟨rfl, -⟩
      · exact absurd (h.holds j n hj) hnew
      · exact (hold ha hi).lt

theorem replaced (h : Follows ds t) {uid content : String} {now : Int} (hrun : t.setContent uid content now = .ok t') :
    Follows (ds ++ [.replaced uid content now]) t' := by
  have hlist := toList_setContent hrun
  refine ⟨h.sound.setContent hrun, ?_, ?_, ?_⟩ <;> rw [hlist]
  case refine_1 =>
    intro a ha
    obtain ⟨before, hbefore, rfl⟩ := List.mem_map.1 ha
    obtain ⟨i, hi⟩ := h.lives before hbefore
    exact ⟨i, lives_replaced.2 ⟨before, hi, rfl⟩⟩
  case refine_2 =>
    intro i a ha
    obtain ⟨before, hbefore, rfl⟩ := lives_replaced.1 ha
    exact List.mem_map_of_mem (h.holds i before hbefore)
  case refine_3 =>
    -- a note that lives as this one does now was this one before, since uids are single
    have hold {a : Note} (ha : a ∈ t.toList) {i : Nat}
        (hlives : Lives (ds ++ [.replaced uid content now]) i ((Deed.replaced uid content now).revise a)) :
        Lives ds i a := by
      obtain ⟨before, hbefore, heq⟩ := lives_replaced.1 hlives
      have huid : a.uid = before.uid := by simpa using congrArg Note.uid heq
      rwa [h.sound.keyed.eq_of_mem ha (h.holds i before hbefore) huid]
    rw [List.pairwise_map]
    exact h.inOrder.imp_of_mem fun ha hb hab i j hi hj => hab i j (hold ha hi) (hold hb hj)

theorem removed (h : Follows ds t) (uid : String) : Follows (ds ++ [.removed uid]) (t.erase uid) := by
  refine ⟨h.sound.erase uid, ?_, ?_, ?_⟩ <;> rw [toList_erase]
  case refine_1 =>
    intro a ha
    obtain ⟨ha, hne⟩ := List.mem_filter.1 ha
    obtain ⟨i, hi⟩ := h.lives a ha
    exact ⟨i, lives_removed.2 ⟨hi, bne_iff_ne.1 hne⟩⟩
  case refine_2 =>
    intro i a ha
    obtain ⟨ha, hne⟩ := lives_removed.1 ha
    exact List.mem_filter.2 ⟨h.holds i a ha, bne_iff_ne.2 hne⟩
  case refine_3 =>
    exact (h.inOrder.filter _).imp fun hab i j hi hj => hab i j (lives_removed.1 hi).1 (lives_removed.1 hj).1

theorem place_lt (h : Follows ds t) {a b : Note} (hab : t.AddedBefore a b) {i j : Nat} (hi : Lives ds i a)
    (hj : Lives ds j b) : i < j := List.pairwise_iff_forall_sublist.1 h.inOrder hab i j hi hj

end Follows
end Table

/-! ## Uses of the store -/

namespace Use

/-- What a use is there to do. -/
def deed? (w : World) : Use → Option Deed
  | add owner content created status =>
    some (.added ⟨World.idText World.noteUidLength w.nextId, owner, content, status, created.getD w.clock, w.clock⟩)
  | replace uid content => some (.replaced uid content w.clock)
  | remove uid => some (.removed uid)
  | elapse _ _ => none

/-- Nothing stands in the way of a use after these deeds: its numbers fit the columns, a new uid is not in use, and a note
whose content is replaced lives. -/
def Can (ds : List Deed) (w : World) : Use → Prop
  | add owner _ created _ => fitsColumn owner = true ∧ fitsColumn (created.getD w.clock) = true ∧
      fitsColumn w.clock = true ∧ ∀ i n, Lives ds i n → n.uid ≠ World.idText World.noteUidLength w.nextId
  | replace uid _ => fitsColumn w.clock = true ∧ ∃ i n, Lives ds i n ∧ n.uid = uid
  | remove _ | elapse _ _ => True

end Use

/-- A use leaves what strikes the store, and the table follows what it has done. -/
structure Use.Tracks (w : World) (r : Except Failure (Option Deed)) (w' : World) : Prop where
  strikes : w'.noteFaults.strikes = w.noteFaults.strikes
  follows : ∀ ds, Table.Follows ds w.notes → Table.Follows (ds ++ done r) w'.notes

namespace Use.Tracks

variable {w w' : World}

theorem idle {r : Except Failure (Option Deed)} (hstrikes : w'.noteFaults.strikes = w.noteFaults.strikes)
    (hnotes : w'.notes = w.notes) (hdone : done r = []) : Tracks w r w' := by
  refine ⟨hstrikes, fun ds h => ?_⟩
  rw [hdone, List.append_nil, hnotes]
  exact h

/-- A method that is struck does nothing, so it comes to what it does where it is not. -/
theorem noteMethod {α : Type} {m : Method} {f : α → Deed} {t : Attempt World α}
    (h : Ends t w.noteUsed fun r w' => Tracks w (r.map fun a => some (f a)) w') :
    Ends (Option.map f <$> World.noteMethod m t) w (Tracks w) := by
  unfold Ends
  rw [Attempt.map_run, World.noteMethod_run]
  split
  · exact idle rfl rfl rfl
  · exact idle rfl rfl rfl
  · rw [Attempt.map_run]
    unfold Ends at h
    cases hr : (t w.noteUsed).1 <;> rw [hr] at h <;> exact h

end Use.Tracks

theorem Use.perform_ends (u : Use) (w : World) : Ends u.perform w (Use.Tracks w) := by
  cases u with
  | add owner content created status =>
    refine Use.Tracks.noteMethod (Ends.next rfl (Ends.look (Ends.bind (World.onNotes_ends _ _) ?_ ?_)))
    · rintro _ w' ⟨hw', ⟨e, he, -⟩ | ⟨-, hinsert⟩⟩
      · cases he
      · exact ⟨hw'.strikes, fun ds h => h.added hinsert⟩
    · rintro e w' ⟨hw', ⟨_, -, hnotes⟩ | ⟨he, -⟩⟩
      · exact .idle hw'.strikes hnotes rfl
      · cases he
  | replace uid content =>
    refine Ends.look (Use.Tracks.noteMethod (Ends.look ((World.onNotes_ends _ _).mono ?_)))
    rintro r w' ⟨hw', ⟨e, rfl, hnotes⟩ | ⟨rfl, hset⟩⟩
    · exact .idle hw'.strikes hnotes rfl
    · exact ⟨hw'.strikes, fun ds h => h.replaced hset⟩
  | remove uid =>
    refine Use.Tracks.noteMethod ((World.onNotes_ends _ _).mono ?_)
    rintro r w' ⟨hw', ⟨e, rfl, hnotes⟩ | ⟨rfl, herase⟩⟩
    · exact .idle hw'.strikes hnotes rfl
    · refine ⟨hw'.strikes, fun ds h => ?_⟩
      rw [← Except.ok.inj herase]
      exact h.removed uid
  | elapse clock nextId => exact .idle rfl rfl rfl

theorem follows_foldl (uses : List Use) (state : World × List Deed) (h : Table.Follows state.2 state.1.notes) :
    (uses.foldl Use.follow state).1.noteFaults.strikes = state.1.noteFaults.strikes ∧
      Table.Follows (uses.foldl Use.follow state).2 (uses.foldl Use.follow state).1.notes := by
  induction uses generalizing state with
  | nil => exact ⟨rfl, h⟩
  | cons u uses ih =>
    have htracks : Use.Tracks state.1 _ _ := u.perform_ends state.1
    obtain ⟨hstrikes, hfollows⟩ := ih (u.follow state) (htracks.follows _ h)
    exact ⟨hstrikes.trans htracks.strikes, hfollows⟩

theorem afterUses_follows {w : World} (hempty : w.notes = .empty) (uses : List Use) :
    (afterUses w uses).1.noteFaults.strikes = w.noteFaults.strikes ∧
      Table.Follows (afterUses w uses).2 (afterUses w uses).1.notes :=
  follows_foldl uses (w, []) (hempty ▸ Table.follows_empty)

/-! ## Listings -/

namespace Table

variable {t : Table} {ds : List Deed}

theorem insert_of_new {n : Note} (hcolumns : ∀ k ∈ [n.owner, n.created, n.updated], fitsColumn k = true)
    (hnew : ∀ m ∈ t.toList, m.uid ≠ n.uid) : ∃ t', t.insert n = .ok t' := by
  have hfree : t.entries.any (·.note.uid == n.uid) = false := by
    rw [List.any_eq_false]
    intro e he huid
    exact hnew e.note (mem_toList.2 ⟨e, he, rfl⟩) (beq_iff_eq.1 huid)
  rw [insert, checkColumns_of_fits hcolumns, hfree]
  exact ⟨_, rfl⟩

theorem setContent_of_mem {n : Note} (hn : n ∈ t.toList) (content : String) {now : Int} (hnow : fitsColumn now = true) :
    ∃ t', t.setContent n.uid content now = .ok t' := by
  obtain ⟨e, he, rfl⟩ := mem_toList.1 hn
  have hthere : t.entries.any (·.note.uid == e.note.uid) = true := List.any_eq_true.2 ⟨e, he, beq_self_eq_true _⟩
  rw [setContent, checkColumns_of_fits (List.forall_mem_singleton.2 hnow), hthere]
  exact ⟨_, rfl⟩

end Table

/-- A use that nothing strikes and nothing stands in the way of does what it is there to do. -/
theorem Use.perform_done {ds : List Deed} {w : World} (h : Table.Follows ds w.notes)
    (hsteady : ∀ n m, w.noteFaults.strikes n m = none) {u : Use} (hcan : u.Can ds w) :
    Ends u.perform w fun r _ => r = .ok (u.deed? w) := by
  cases u with
  | add owner content created status =>
    obtain ⟨howner, hcreated, hclock, hnew⟩ := hcan
    let made : Note := ⟨World.idText World.noteUidLength w.nextId, owner, content, status, created.getD w.clock, w.clock⟩
    have hcolumns : ∀ k ∈ [made.owner, made.created, made.updated], fitsColumn k = true := by
      simp [made, howner, hcreated, hclock]
    obtain ⟨t, ht⟩ := Table.insert_of_new hcolumns fun n hn => (h.lives n hn).elim fun i hi => hnew i n hi
    exact Ends.map (World.noteMethod_ends_steady (hsteady · _)
      (Ends.next rfl (Ends.look (Ends.next (World.onNotes_ok ht) rfl))))
  | replace uid content =>
    obtain ⟨hclock, i, n, hlives, rfl⟩ := hcan
    obtain ⟨t, ht⟩ := Table.setContent_of_mem (h.holds i n hlives) content hclock
    refine Ends.look (Ends.map (World.noteMethod_ends_steady (hsteady · _) (Ends.look ?_)))
    unfold Ends
    rw [World.onNotes_ok ht]
    rfl
  | remove uid => exact Ends.map (World.noteMethod_ends_steady (hsteady · _) rfl)
  | elapse clock nextId => rfl

/-- **What a listing shows of a history**: the notes that live and are asked for, each once, newest first, and of equal age
the one that was added last first. -/
structure Shows (ds : List Deed) (asked : Note → Prop) (ns : List Note) : Prop where
  mem : ∀ n, n ∈ ns ↔ (∃ i, Lives ds i n) ∧ asked n
  once : (ns.map (·.uid)).Nodup
  ordered : ns.Pairwise fun a b =>
    b.created < a.created ∨ b.created = a.created ∧ ∀ i j, Lives ds i a → Lives ds j b → j < i

theorem Table.Follows.shows {ds : List Deed} {t : Table} (h : Table.Follows ds t) {asked : Note → Prop} {ns : List Note}
    (hns : t.Listing asked ns) : Shows ds asked ns where
  mem n := (hns.mem n).trans (and_congr_left' ⟨h.lives n, fun ⟨i, hi⟩ => h.holds i n hi⟩)
  once := hns.once
  ordered := hns.ordered.imp fun hab => hab.imp_right fun ⟨hage, hadded⟩ =>
    ⟨hage, fun _ _ hi hj => h.place_lt hadded hj hi⟩

/-- **After any history of the store a listing shows what lives and is asked for**, and it is refused only where a number
in the question does not fit the columns.  A count of a status is the length of the listing of that status.  What was done
is what the uses were there to do, wherever nothing strikes the store and nothing stands in the way. -/
theorem afterUses_listing {w : World} (hempty : w.notes = .empty) (hsteady : ∀ n m, w.noteFaults.strikes n m = none)
    (uses : List Use) (owner : Int) (f : Filter) :
    let w' := (afterUses w uses).1
    let ds := (afterUses w uses).2
    (f.Fits owner → ∃ ns, (World.notesOf owner f w').1 = .ok (some ns) ∧ Shows ds (f.Asks owner) ns) ∧
    (¬f.Fits owner → (World.notesOf owner f w').1 = .error .wideInteger) ∧
    (∀ status, (World.noteCount owner status w').1 =
      (World.notesOf owner { status := some status } w').1.map (·.map List.length)) ∧
    ∀ u, Use.Can ds w' u → (u.perform w').1 = .ok (u.deed? w') := by
  obtain ⟨hstrikes, hfollows⟩ := afterUses_follows hempty uses
  intro w' ds
  have hsteady' : ∀ n m, w'.noteFaults.strikes n m = none := fun n m => by rw [hstrikes, hsteady]
  have hlisted (f : Filter) := World.notesOf_fst (hsteady' · .list) owner f
  refine ⟨fun hfits => ?_, fun hwide => ?_, fun status => ?_, fun u hcan => u.perform_done hfollows hsteady' hcan⟩
  · obtain ⟨ns, hns⟩ := w'.notes.select_ok hfits
    refine ⟨ns, ?_, hfollows.shows (Table.listing_select hfollows.sound hns)⟩
    rw [hlisted, hns]
    rfl
  · rw [hlisted, w'.notes.select_refused hwide]
    rfl
  · rw [hlisted, World.noteCount_fst (hsteady' · .count), Table.count_eq_length]
    cases w'.notes.select owner { status := some status } <;> rfl

/-- A store without notes. -/
def noNotes : World :=
  .fresh 5 (.fresh ⟨[], [], fun _ _ => none, fun _ => none, fun _ _ => none⟩ ⟨fun _ _ => .ok [[]], 0⟩ 0)
    (.fresh (.always "") (.always "") (.always ""))

/-- Two notes of one age; the newer row is given again to a third of that age, and the oldest note is rewritten. -/
def rowGivenAgain : List Use :=
  [.add 1 "one" none normal, .add 1 "two" none normal, .remove (World.idText World.noteUidLength 2),
    .add 1 "three" (some 5) "ARCHIVED", .elapse 9 7, .replace (World.idText World.noteUidLength 1) "new"]

theorem afterUses_listing_rowGivenAgain :
    noNotes.notes = .empty ∧ (∀ n m, noNotes.noteFaults.strikes n m = none) ∧ Filter.all.Fits 1 ∧
    (afterUses noNotes rowGivenAgain).1.notes.entries.map (·.row) = [1, 2] ∧
    ∃ ns, (World.notesOf 1 .all (afterUses noNotes rowGivenAgain).1).1 = .ok (some ns) ∧
      Shows (afterUses noNotes rowGivenAgain).2 (Filter.all.Asks 1) ns ∧ ns.map (·.content) = ["three", "new"] := by
  obtain ⟨ns, hns, hshows⟩ := (afterUses_listing (w := noNotes) rfl (fun _ _ => rfl) rowGivenAgain 1 .all).1 (by decide)
  refine ⟨rfl, fun _ _ => rfl, by decide, by decide +kernel, ns, hns, hshows, ?_⟩
  have hrows : (afterUses noNotes rowGivenAgain).1.notes.entries.filter (fun e => Table.Filter.admits 1 .all e.note) =
      [⟨1, ⟨World.idText World.noteUidLength 1, 1, "new", normal, 5, 9⟩⟩,
        ⟨2, ⟨World.idText World.noteUidLength 3, 1, "three", "ARCHIVED", 5, 5⟩⟩] := by decide +kernel
  have hselect := World.notesOf_fst (w := (afterUses noNotes rowGivenAgain).1) (fun _ => rfl) 1 .all
  rw [hns, Table.select, hrows] at hselect
  have hsorted : some ns = some _ := Except.ok.inj hselect
  rw [Option.some.inj hsorted]
  simp [List.mergeSort, Table.newerOrEqual]

/-- A bound that does not fit the columns is refused, though a note lives that it admits. -/
theorem wide_bound_hides_note :
    (∃ n, (∃ i, Lives (afterUses noNotes [.add 1 "kept" none normal]).2 i n) ∧
      ({ createdTo := some 9223372036854775808 } : Filter).Asks 1 n) ∧
    (World.notesOf 1 { createdTo := some 9223372036854775808 } (afterUses noNotes [.add 1 "kept" none normal]).1).1 =
      .error .wideInteger := by
  refine ⟨⟨⟨World.idText World.noteUidLength 1, 1, "kept", normal, 5, 5⟩, ⟨0, _, by decide +kernel, by decide +kernel, rfl⟩,
    (Table.admits_iff _ _ _).1 (by decide +kernel)⟩, by decide +kernel⟩

end Note
end NoteAgent
