/-!
# Lock — many readers or one writer

A visit to the lock takes its read side or its write side.  It enters when its side is free, otherwise it parks; the
visits that are parked are woken when the write side is left and when the last reader leaves.  A woken visit looks
again, in whatever order the woken ones come.  Leaving is the same for a visit that broke off.
-/
namespace NoteAgent

/-- The counters of the lock. -/
structure Lock where
  readers : Nat
  writer : Bool
  deriving DecidableEq, Repr

namespace Lock

/-- The two sides. -/
inductive Side
  | read
  | write
  deriving DecidableEq, Repr

def free : Lock := ⟨0, false⟩

def mayEnter (l : Lock) : Side → Bool
  | .read => !l.writer
  | .write => !l.writer && l.readers == 0

/-- The counters once a side is entered. -/
def enter (l : Lock) : Side → Lock
  | .read => { l with readers := l.readers + 1 }
  | .write => { l with writer := true }

def leave (l : Lock) : Side → Lock
  | .read => { l with readers := l.readers - 1 }
  | .write => { l with writer := false }

/-- Whether leaving a side, which left these counters, wakes the parked visits. -/
def wakes (l : Lock) : Side → Bool
  | .read => l.readers == 0
  | .write => true

/-! ## Visits -/

/-- How far a visit is. -/
inductive Phase
  | holding
  | parked
  | woken
  | gone
  deriving DecidableEq, Repr

/-- One visit of a thread. -/
structure Visit where
  thread : String
  side : Side
  phase : Phase
  deriving DecidableEq, Repr

/-- The lock and all visits to it, oldest first. -/
structure Room where
  lock : Lock
  visits : List Visit
  deriving DecidableEq, Repr

/-- Nobody has come yet. -/
def Room.empty : Room := ⟨free, []⟩

/-- What can happen next: a thread comes to a side, or the visit at a position leaves or, being woken, looks again. -/
inductive Event
  | arrive (thread : String) (side : Side)
  | leave (visit : Nat)
  | look (visit : Nat)
  deriving DecidableEq, Repr

def wakeAll (vs : List Visit) : List Visit :=
  vs.map fun v => if v.phase == .parked then { v with phase := .woken } else v

/-- The room after an event.  A visit that does not hold cannot leave, and one that is not woken does not look. -/
def Room.step (r : Room) : Event → Room
  | .arrive thread side =>
    if r.lock.mayEnter side then ⟨r.lock.enter side, r.visits ++ [⟨thread, side, .holding⟩]⟩
    else ⟨r.lock, r.visits ++ [⟨thread, side, .parked⟩]⟩
  | .leave i =>
    match r.visits[i]? with
    | some v =>
      if v.phase == .holding then
        let lock := r.lock.leave v.side
        let visits := r.visits.set i { v with phase := .gone }
        ⟨lock, if lock.wakes v.side then wakeAll visits else visits⟩
      else r
    | none => r
  | .look i =>
    match r.visits[i]? with
    | some v =>
      if v.phase == .woken then
        if r.lock.mayEnter v.side then ⟨r.lock.enter v.side, r.visits.set i { v with phase := .holding }⟩
        else ⟨r.lock, r.visits.set i { v with phase := .parked }⟩
      else r
    | none => r

def Room.run (r : Room) (es : List Event) : Room := es.foldl Room.step r

/-! ## Scripts -/

/-- One line of a script: a thread comes to a side, or leaves, normally or not. -/
inductive Line
  | come (thread : String) (side : Side)
  | go (thread : String)
  deriving DecidableEq, Repr

def Room.lastVisit? (r : Room) (thread : String) : Option Nat :=
  (r.visits.zipIdx.reverse.find? fun v => v.1.thread == thread).map (·.2)

/-- Every visit looks once, the oldest first; those that are not woken stay as they are. -/
def Room.settled (r : Room) : Room := r.run ((List.range r.visits.length).map Event.look)

/-- The room after a line, once every visit holds, waits or is gone. -/
def Room.follow (r : Room) : Line → Room
  | .come thread side => (r.step (.arrive thread side)).settled
  | .go thread =>
    match r.lastVisit? thread with
    | some i => (r.step (.leave i)).settled
    | none => r

def Room.rooms (r : Room) : List Line → List Room
  | [] => []
  | l :: ls => r.follow l :: (r.follow l).rooms ls

/-- Each thread that has come, in the order of first coming, with the phase of its last visit. -/
def Room.phases (r : Room) : List (String × Phase) :=
  r.visits.foldl (fun acc v =>
    if acc.any (·.1 == v.thread) then acc.map fun p => if p.1 == v.thread then (p.1, v.phase) else p
    else acc ++ [(v.thread, v.phase)]) []

end Lock
end NoteAgent
