import Mathlib.Data.List.Basic
import Mathlib.Logic.Function.Basic

/-!
# Threads that take locks

The programs of threads, cut down to what they do with locks, with reference counts and with other
threads. Every branch that depends on anything else is a `choose`, and every loop a `loop`.

Objects are numbers. An object is counted by reference, and the thread that drops its last reference
runs a finalizer. An object has a worker, a thread that holds a reference, marks the object as done
when its work is over, and drops the reference. The handle of the worker waits in a slot of the
object to be joined.
-/

set_option autoImplicit false

namespace Tymux.Lib.Locks

inductive Prog (L : Type) where
  | skip
  | seq (first rest : Prog L)
  /-- Wait for the lock and take it. -/
  | lock (l : L)
  | unlock (l : L)
  /-- Go on as data says that the program does not show. -/
  | choose (k : List ℕ → Prog L)
  /-- Any number of times. -/
  | loop (body : Prog L)
  /-- A new object, and a reference to it. -/
  | create (k : ℕ → Prog L)
  /-- A reference to the object, if there is still one to copy. -/
  | upgrade (o : ℕ) (held gone : Prog L)
  /-- A copy of the thread's reference goes into the shared table. -/
  | store (o : ℕ)
  /-- A reference moves from the shared table to the thread. -/
  | unstore (o : ℕ) (found absent : Prog L)
  /-- A reference is dropped; when it was the last one, the finalizer runs. -/
  | drop (o : ℕ)
  /-- The finalizer has run. -/
  | free (o : ℕ)
  | ifDone (o : ℕ) (yes no : Prog L)
  /-- The object is done no more. -/
  | reopen (o : ℕ)
  /-- Start a worker of the object, with a reference of its own, and hold its handle. -/
  | fork (o : ℕ) (body : Prog L)
  /-- The object is done. -/
  | publish (o : ℕ)
  /-- Take the handle out of the slot. -/
  | take (o : ℕ)
  /-- Put the handle into the slot. -/
  | put (o : ℕ)
  /-- Wait for the thread whose handle is held to end; with `own`, unless it is this thread. -/
  | join (own : Bool)

namespace Prog

variable {L : Type}

def block : List (Prog L) → Prog L
  | [] => skip
  | c :: cs => seq c (block cs)

def either (a b : Prog L) : Prog L := choose fun
  | [] => a
  | _ :: _ => b

/-- Some object. -/
def some_ (k : ℕ → Prog L) : Prog L := choose fun os => k os.headI

def forEach (os : List ℕ) (k : ℕ → Prog L) : Prog L := block (os.map k)

/-- The program under the guard of the lock. -/
def locked (l : L) (c : Prog L) : Prog L := seq (lock l) (seq c (unlock l))

/-- The program with a reference to the object, or nothing where there is none left. -/
def holding (o : ℕ) (c : Prog L) : Prog L := upgrade o (seq c (drop o)) skip

/-- References to those of the objects that still have one, and the program that goes on. -/
def gather (k : List ℕ → Prog L) : List ℕ → List ℕ → Prog L
  | [], held => k held
  | o :: os, held => upgrade o (gather k os (o :: held)) (gather k os held)

/-- References gathered under the lock, the program that uses them, and their end. -/
def gathering (l : L) (os : List ℕ) (k : List ℕ → Prog L) : Prog L :=
  seq (lock l) (gather (fun held => block [unlock l, k held, forEach held drop]) os [])

end Prog

structure Thread (L : Type) where
  rest : List (Prog L) := []
  held : List L := []
  /-- The references that the thread holds. -/
  refs : List ℕ := []
  /-- The handle that the thread holds. -/
  hand : Option ℕ := none
  /-- The object whose worker the thread is. -/
  job : Option ℕ := none

/-- The threads, and what they share. -/
structure Pool (L : Type) where
  threads : ℕ → Thread L := fun _ => {}
  born : ℕ := 0
  made : ℕ := 0
  /-- The references in the shared table. -/
  stored : List ℕ := []
  done : ℕ → Bool := fun _ => false
  slot : ℕ → Option ℕ := fun _ => none

variable {L : Type}

namespace Pool

def setThread (s : Pool L) (t : ℕ) (th : Thread L) : Pool L :=
  { s with threads := Function.update s.threads t th }

/-- No thread holds the lock. -/
def Free (s : Pool L) (l : L) : Prop := ∀ t < s.born, l ∉ (s.threads t).held

instance [DecidableEq L] (s : Pool L) (l : L) : Decidable (s.Free l) :=
  inferInstanceAs (Decidable (∀ t < s.born, l ∉ (s.threads t).held))

/-- There is a reference to the object. -/
def Alive (s : Pool L) (o : ℕ) : Prop := o ∈ s.stored ∨ ∃ t < s.born, o ∈ (s.threads t).refs

instance (s : Pool L) (o : ℕ) : Decidable (s.Alive o) :=
  inferInstanceAs (Decidable (o ∈ s.stored ∨ ∃ t < s.born, o ∈ (s.threads t).refs))

def Ended (s : Pool L) (t : ℕ) : Prop := (s.threads t).rest.isEmpty = true

instance (s : Pool L) (t : ℕ) : Decidable (s.Ended t) :=
  inferInstanceAs (Decidable ((s.threads t).rest.isEmpty = true))

/-- One more thread. -/
def start (s : Pool L) (c : Prog L) : Pool L :=
  { s.setThread s.born { rest := [c] } with born := s.born + 1 }

variable [DecidableEq L] (finalizer : ℕ → Prog L)

/-- The command `c` of the thread `t`, which then stands at `rest`; `data` decides its choices. A
lock that is held and a thread that has not ended are waited for. -/
def exec (s : Pool L) (t : ℕ) (data : List ℕ) (rest : List (Prog L)) : Prog L → Option (Pool L)
  | .skip => s.setThread t { s.threads t with rest }
  | .seq a b => s.setThread t { s.threads t with rest := a :: b :: rest }
  | .lock l =>
    if s.Free l then s.setThread t { s.threads t with rest, held := l :: (s.threads t).held }
    else none
  | .unlock l => s.setThread t { s.threads t with rest, held := (s.threads t).held.erase l }
  | .choose k => s.setThread t { s.threads t with rest := k data :: rest }
  | .loop body =>
    s.setThread t { s.threads t with
      rest := if data.isEmpty then rest else body :: (Prog.loop body) :: rest }
  | .create k =>
    some { s.setThread t { s.threads t with
      rest := k s.made :: rest, refs := s.made :: (s.threads t).refs } with made := s.made + 1 }
  | .upgrade o held gone =>
    if s.Alive o then
      s.setThread t { s.threads t with rest := held :: rest, refs := o :: (s.threads t).refs }
    else s.setThread t { s.threads t with rest := gone :: rest }
  | .store o => some { s.setThread t { s.threads t with rest } with stored := o :: s.stored }
  | .unstore o found absent =>
    if o ∈ s.stored then
      some { s.setThread t { s.threads t with
        rest := found :: rest, refs := o :: (s.threads t).refs } with stored := s.stored.erase o }
    else s.setThread t { s.threads t with rest := absent :: rest }
  | .drop o =>
    let s' := s.setThread t { s.threads t with rest, refs := (s.threads t).refs.erase o }
    if s'.Alive o then s'
    else s.setThread t { s.threads t with
      rest := finalizer o :: .free o :: rest, refs := (s.threads t).refs.erase o }
  | .free _ => s.setThread t { s.threads t with rest }
  | .ifDone o yes no =>
    s.setThread t { s.threads t with rest := (if s.done o then yes else no) :: rest }
  | .reopen o => some { s.setThread t { s.threads t with rest } with
      done := Function.update s.done o false }
  | .fork o body =>
    some { (s.setThread t { s.threads t with rest, hand := some s.born }).setThread s.born
      { rest := [body], refs := [o], job := some o } with born := s.born + 1 }
  | .publish o => some { s.setThread t { s.threads t with rest } with
      done := Function.update s.done o true }
  | .take o => some { s.setThread t { s.threads t with rest, hand := s.slot o } with
      slot := Function.update s.slot o none }
  | .put o => some { s.setThread t { s.threads t with rest, hand := none } with
      slot := Function.update s.slot o (s.threads t).hand }
  | .join own =>
    match (s.threads t).hand with
    | none => s.setThread t { s.threads t with rest }
    | some u =>
      if s.Ended u ∨ (own = true ∧ u = t) then
        s.setThread t { s.threads t with rest, hand := none }
      else none

/-- The next command of the thread. -/
def move (s : Pool L) (t : ℕ) (data : List ℕ) : Option (Pool L) :=
  match (s.threads t).rest with
  | [] => none
  | c :: rest => s.exec finalizer t data rest c

/-- What can happen next: a new thread runs one of the programs, or a thread moves. -/
inductive Event (P : Type) where
  | start (p : P)
  | move (t : ℕ) (data : List ℕ)

def step {P : Type} (program : P → Prog L) (s : Pool L) : Event P → Option (Pool L)
  | .start p => s.start (program p)
  | .move t data => s.move finalizer t data

/-- The thread waits for a lock that `u` holds, or for `u` to end. -/
def WaitsFor (s : Pool L) (t u : ℕ) : Prop :=
  (∃ l rest, (s.threads t).rest = .lock l :: rest ∧ l ∈ (s.threads u).held) ∨
  ∃ own rest, (s.threads t).rest = .join own :: rest ∧ (s.threads t).hand = some u ∧
    ¬ s.Ended u ∧ ¬ (own = true ∧ u = t)

end Pool

end Tymux.Lib.Locks
