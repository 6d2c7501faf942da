import Tymux.Lib.LockProgram

/-!
# What the threads lock

The engine, the supervision and the panes as programs that take locks. A guard that lives to the end
of a block is a `locked` around the block; one that lives to the end of a statement is a `locked`
around what the statement does. Where the source branches on the contents of a map or on the result
of a call, the program chooses; a choice under a lock stands before the lock where that makes the
blocks nest.

An object is a pane at its address: `Arc<Pane>` is its reference, the reader thread its worker,
`exited` its mark of being done, `_reader_handle` its slot and `Drop for Pane` its finalizer. The
shared table is the map of the panes. A lookup in it finds some pane to which there is a reference.

Locks of the standard library and of the runtime are left out, and so is the drop of the engine.
-/

set_option autoImplicit false

namespace Tymux.Model.Locking

open Lib.Locks (Prog Pool)
open Lib.Locks.Prog (skip seq lock unlock choose loop create store unstore drop fork publish take
  put join block either some_ forEach locked holding gather gathering)

/-- SRC: pane.rs:121-221, terminal_query/clients.rs:35-38, terminal_query/outbox.rs:34-37 -/
inductive PaneLock where
  | writer | stdinWriter | master | parser | replay | readGate | scannerHeld | adoptedHeld
  | exitCode | spawnLock | exitHook | child | readerHandle
  | clients | outbox
  deriving DecidableEq, Repr

/-- SRC: engine.rs:225-262, supervision.rs:73-74 -/
inductive Lock where
  | sessions | panes | viewports | windowWatchers | windowIndex | resizeLocks | persistLock
  | window (id : ℕ)
  | inner
  | pane (p : ℕ) (k : PaneLock)
  deriving DecidableEq, Repr

abbrev Program : Type := Prog Lock

/-- What may happen, or not. -/
def optional (c : Program) : Program := either skip c

/-- A lock of the pane that is held for a moment. -/
def touch (p : ℕ) (k : PaneLock) : Program := locked (.pane p k) skip

/-! ## Panes -/

/-- `Outbox::offer`, which takes the lock again when the writer thread cannot be started.
SRC: terminal_query/outbox.rs:63-97 -/
def offer (p : ℕ) : Program := block [touch p .outbox, optional (touch p .outbox)]

/-- `vt100::Parser::process`, whose callbacks offer replies. -/
def process (p : ℕ) : Program := loop (offer p)

/-- SRC: pane.rs:781-794 -/
def injectOutput (p : ℕ) : Program :=
  locked (.pane p .parser) (block [process p, touch p .replay])

/-- SRC: pane.rs:804-806 -/
def exitCode (p : ℕ) : Program := touch p .exitCode

/-- On unix a signal is sent and no lock is taken; elsewhere the child is locked.
SRC: pane.rs:815-849 -/
def kill (p : ℕ) : Program := optional (touch p .child)

def terminate (p : ℕ) : Program := kill p

/-- SRC: pane.rs:717-722 -/
def retire (p : ℕ) : Program := touch p .spawnLock

/-- SRC: pane.rs:726-730 -/
def setExitHook (p : ℕ) : Program := touch p .exitHook

/-- SRC: pane.rs:960-990 -/
def resize (p : ℕ) : Program := optional (block [touch p .master, optional (touch p .parser)])

/-- SRC: pane.rs:1043-1084 -/
def snapshot (p : ℕ) : Program := touch p .parser

/-- `Drop for Pane`; with the last clone of the outbox its writer thread is closed.
SRC: pane.rs:1116-1134, terminal_query/outbox.rs:130-134 -/
def dropPane (p : ℕ) : Program :=
  block [locked (.pane p .readerHandle) (block [take p, join true]), touch p .outbox]

/-! ## Supervision under its lock -/

/-- `announce_exit` and `announce_failed_spawn`.
SRC: supervision.rs:504-568 -/
def announce (p : ℕ) : Program := optional (injectOutput p)

/-- SRC: supervision.rs:181-199 -/
def accountExit (p : ℕ) : Program := optional (announce p)

/-- SRC: supervision.rs:176-179 -/
def handleExit (p : ℕ) : Program := locked .inner (accountExit p)

/-! ## The reader thread -/

/-- The chunk is parsed, scanned and kept for replay.
SRC: pane.rs:565-589 -/
def chunk (p : ℕ) : Program :=
  locked (.pane p .parser)
    (block [touch p .clients, process p, touch p .scannerHeld, touch p .replay])

/-- One turn of the loop: nothing to read, frozen, or a chunk.
SRC: pane.rs:528-603 -/
def readerTurn (p : ℕ) : Program := optional (locked (.pane p .readGate) (optional (chunk p)))

/-- What the reader does before the exit is visible.
SRC: pane.rs:516-643 -/
def readerWork (p : ℕ) : Program :=
  block [touch p .adoptedHeld, touch p .scannerHeld, touch p .master, loop (readerTurn p),
    -- the end of the file, under the gate
    touch p .readGate,
    touch p .outbox, optional (touch p .replay), touch p .child, touch p .exitCode,
    touch p .exitHook, optional (handleExit p)]

/-- SRC: pane.rs:516-651 -/
def reader (p : ℕ) : Program := block [readerWork p, publish p, drop p]

/-- SRC: pane.rs:510-653 -/
def startReader (p : ℕ) : Program :=
  block [fork p (reader p), locked (.pane p .readerHandle) (put p)]

/-- A new pane around a process that runs; a seed locks what it fills.
SRC: pane.rs:409-504, pane/handoff.rs:72-86 -/
def assemble (p : ℕ) : Program :=
  block [optional (touch p .parser), optional (touch p .adoptedHeld), startReader p]

/-- `Pane::spawn` and `Pane::from_adopted`, which can fail, and what is done with the new pane.
SRC: pane.rs:348-407, pane/handoff.rs:400-450 -/
def spawn (k : ℕ → Program) : Program :=
  optional (create fun p => block [assemble p, k p, drop p])

/-- SRC: pane.rs:663-711 -/
def respawnWith (p : ℕ) : Program :=
  locked (.pane p .spawnLock) (optional (.ifDone p
    (optional (block [
      locked (.pane p .readerHandle) (block [take p, join false]),
      touch p .writer, touch p .outbox, touch p .master, touch p .stdinWriter, touch p .child,
      touch p .exitCode, .reopen p, optional (injectOutput p), startReader p]))
    skip))

/-! ## Supervision

A `Weak<Pane>` is upgraded, and the `Arc` is dropped, under the supervision's lock. -/

/-- SRC: supervision.rs:164-173 -/
def installHook (p : ℕ) : Program :=
  block [setExitHook p, optional (block [exitCode p, accountExit p])]

/-- SRC: supervision.rs:101-114 -/
def registerLive (p : ℕ) : Program := locked .inner (installHook p)

/-- SRC: supervision.rs:138-150 -/
def adoptStarted (p : ℕ) : Program := locked .inner (installHook p)

/-- SRC: supervision.rs:154-162 -/
def forget : Program := locked .inner (optional (some_ fun p => holding p (retire p)))

/-- SRC: supervision.rs:202-240 -/
def doRespawn : Program := some_ fun p =>
  block [holding p skip, holding p (optional (block [respawnWith p, optional (announce p)]))]

/-- `Entry::running_pane`.
SRC: supervision.rs:61-63 -/
def runningPane (k : ℕ → Program) : Program := some_ fun p => holding p (.ifDone p skip (k p))

/-- SRC: supervision.rs:245-275 -/
def runDue : Program := locked .inner
  (block [loop (some_ fun p => holding p (.ifDone p skip skip)), loop doRespawn])

/-- `register_restored`, `take_dirty`, `state_of`, `persisted_for` and `reset_budget`, which touch no
pane.
SRC: supervision.rs:117-134, 278-308, 453-462 -/
def readInner : Program := locked .inner skip

/-- SRC: supervision.rs:310-320 -/
def status : Program := locked .inner (optional (runningPane fun _ => skip))

/-- SRC: supervision.rs:322-345 -/
def setPolicy : Program := locked .inner
  (optional (some_ fun p => holding p (optional (injectOutput p))))

/-- SRC: supervision.rs:349-393 -/
def stop : Program := locked .inner
  (optional (some_ fun p => holding p (either (.ifDone p skip (terminate p))
    (optional (injectOutput p)))))

/-- SRC: supervision.rs:397-436 -/
def restart : Program := locked .inner (optional
  (either (runningPane terminate) (block [runningPane fun _ => skip, optional doRespawn])))

/-- SRC: supervision.rs:439-451 -/
def startSupervised : Program := locked .inner
  (optional (block [runningPane fun _ => skip, optional doRespawn]))

/-! ## The engine -/

/-- SRC: engine.rs:404-413 -/
def windowAndSessionForPane : Program := locked .windowIndex skip

/-- `session_to_snapshot` and the like: the state of each pane.
SRC: engine.rs:1430-1530 -/
def paneStates : Program := loop readInner

/-- The record reads the exit codes.
SRC: engine.rs:423-447, 1043-1055 -/
def persistSession : Program := locked .persistLock (locked .sessions (locked .panes
  (optional (block [readInner, loop (some_ exitCode)]))))

/-- SRC: engine.rs:1361-1365 -/
def notifyWindowChanged : Program := locked .windowWatchers skip

/-- SRC: engine.rs:354-399 -/
def loadPersisted : Program :=
  locked .sessions (locked .panes (locked .windowIndex (loop readInner)))

/-- SRC: engine.rs:470-525 -/
def createSession : Program := spawn fun p =>
  block [locked .sessions skip, locked .panes (store p), registerLive p, locked .windowIndex skip,
    persistSession]

/-- The handles are resolved under both locks, and read after both are released.
SRC: engine.rs:538-580 -/
def listSessions : Program := choose fun panes =>
  seq (lock .sessions) (seq (lock .panes) (gather (fun held =>
    block [unlock .panes, unlock .sessions, paneStates, forEach held drop]) panes []))

/-- A pane goes: it is forgotten, taken out of the map, killed and dropped.
SRC: engine.rs:614-621, 823-828 -/
def removePane : Program :=
  block [forget, some_ fun p => unstore p (seq (kill p) (drop p)) skip]

/-- SRC: engine.rs:588-628 -/
def killSession : Program :=
  block [locked .sessions skip, optional (block [locked .windowIndex skip,
    locked .panes (loop removePane), locked .persistLock skip])]

/-- SRC: engine.rs:662-668 -/
def deadPaneExitCode : Program := locked .panes (optional (some_ exitCode))

/-- SRC: engine.rs:675-737 -/
def splitPane : Program := spawn fun p =>
  block [windowAndSessionForPane, optional (block [locked .sessions skip, optional (block [
    locked .panes (store p), registerLive p, locked .windowIndex skip,
    locked .sessions (locked .panes paneStates), persistSession, notifyWindowChanged])])]

/-- The window is told while the panes are locked.
SRC: engine.rs:742-848 -/
def closePane : Program :=
  block [windowAndSessionForPane, optional (block [
    locked .sessions (optional (locked .panes paneStates)),
    optional (block [either (locked .persistLock skip) persistSession, locked .windowIndex skip,
      locked .panes (block [removePane, loop removePane, optional notifyWindowChanged])])])]

/-- `sessions` is released before the second guard of `panes`.
SRC: engine.rs:851-896 -/
def createWindow : Program := spawn fun p =>
  either (locked .sessions skip) (block [lock .sessions, locked .panes (store p), registerLive p,
    locked .windowIndex skip, lock .panes, paneStates, unlock .sessions, unlock .panes,
    persistSession])

/-- SRC: engine.rs:998-1036 -/
def startPaneInner : Program :=
  either (locked .panes skip) (either (seq (locked .panes skip) startSupervised)
    (locked .panes (spawn fun p => block [store p, adoptStarted p])))

/-- SRC: engine.rs:919-992 -/
def reviveSession : Program :=
  block [locked .sessions skip, optional (block [locked .panes skip, optional (block [
    loop readInner, optional (block [locked .panes skip, optional (block [
      loop startPaneInner, persistSession])])])])]

/-- SRC: engine.rs:1072-1089 -/
def superviseTick : Program :=
  block [runDue, readInner, loop windowAndSessionForPane, loop persistSession]

/-- SRC: engine.rs:1114-1125 -/
def setRestartPolicy : Program :=
  block [windowAndSessionForPane, optional (block [setPolicy, optional (block [persistSession,
    status])])]

/-- SRC: engine.rs:1129-1157 -/
def setSessionRestartPolicy : Program :=
  block [locked .sessions skip, optional (block [loop setPolicy, optional persistSession])]

/-- SRC: engine.rs:1161-1166 -/
def stopPane : Program :=
  block [windowAndSessionForPane, optional (block [stop, optional persistSession])]

/-- SRC: engine.rs:1057-1062, 1170-1185 -/
def restartPane : Program :=
  block [windowAndSessionForPane, optional (block [locked .panes skip,
    either startPaneInner restart, optional persistSession])]

/-- SRC: engine.rs:1189-1194 -/
def startPane : Program :=
  block [windowAndSessionForPane, optional (block [startPaneInner, optional persistSession])]

/-- SRC: engine.rs:1196-1201 -/
def resetRestartBudget : Program :=
  block [windowAndSessionForPane, optional (block [readInner, optional persistSession])]

/-- The window's own lock is held to the end.
SRC: engine.rs:1270-1345 -/
def recomputeWindowGeometry : Program :=
  block [locked .resizeLocks skip, some_ fun w => locked (.window w) (block [
    locked .viewports skip, locked .windowIndex skip, optional (block [
      locked .sessions skip, optional (choose fun panes => gathering .panes panes fun held =>
        block [forEach held resize, notifyWindowChanged, persistSession])])])]

/-- SRC: engine.rs:1211-1237 -/
def reportViewportAndRecompute : Program :=
  block [locked .viewports skip, recomputeWindowGeometry]

/-- `window_snapshot` and `session_snapshot`.
SRC: engine.rs:1388-1416 -/
def sessionSnapshot : Program := locked .sessions (locked .panes paneStates)

/-! ## The threads -/

/-- What the daemon does with a pane that it has looked up. -/
inductive PaneOp where
  | respawn | retire | kill | terminate | resize | snapshot | searchScrollback
  | writeInput | writeStdin | closeStdin | replaySince | registerLiveClient | exitCode
  | freezeReads | exportHandoff | abortHandoff
  deriving DecidableEq, Repr

/-- SRC: pane.rs:657-1112, pane/handoff.rs:312-396 -/
def PaneOp.program (p : ℕ) : PaneOp → Program
  | respawn => respawnWith p
  | retire => Locking.retire p
  | kill => Locking.kill p
  | terminate => Locking.terminate p
  | resize => Locking.resize p
  | snapshot | searchScrollback => Locking.snapshot p
  | writeInput => touch p .writer
  | writeStdin | closeStdin => touch p .stdinWriter
  | replaySince => touch p .replay
  | registerLiveClient => touch p .clients
  | exitCode => Locking.exitCode p
  | freezeReads => touch p .readGate
  | exportHandoff => block [touch p .master, touch p .stdinWriter,
      locked (.pane p .parser) (touch p .replay), touch p .scannerHeld]
  | abortHandoff => block [touch p .master, touch p .stdinWriter]

inductive Op where
  | loadPersisted | createSession | listSessions | killSession | deadPaneExitCode
  | splitPane | closePane | createWindow | reviveSession | superviseTick
  | paneStatus | paneState | setRestartPolicy | setSessionRestartPolicy
  | stopPane | restartPane | startPane | resetRestartBudget
  | reportViewportAndRecompute | unregisterViewport | recomputeWindowGeometry
  | watchWindow | windowIdForPane | sessionSnapshot | attachedClientCount
  /-- `pane_lookup`, `exited_pane` or `held_pane`, and calls on the pane that it finds. -/
  | onPane (calls : List PaneOp)
  /-- A pane that is started and dropped. -/
  | spawnPane
  /-- The writer thread of an outbox; a wait on `wake` releases the lock and takes it again. -/
  | drainReplies
  deriving DecidableEq, Repr

/-- SRC: engine.rs:354-1428, terminal_query/outbox.rs:136-153 -/
def Op.program : Op → Program
  | loadPersisted => Locking.loadPersisted
  | createSession => Locking.createSession
  | listSessions => Locking.listSessions
  | killSession => Locking.killSession
  | deadPaneExitCode => Locking.deadPaneExitCode
  | splitPane => Locking.splitPane
  | closePane => Locking.closePane
  | createWindow => Locking.createWindow
  | reviveSession => Locking.reviveSession
  | superviseTick => Locking.superviseTick
  | paneStatus => status
  | paneState => readInner
  | setRestartPolicy => Locking.setRestartPolicy
  | setSessionRestartPolicy => Locking.setSessionRestartPolicy
  | stopPane => Locking.stopPane
  | restartPane => Locking.restartPane
  | startPane => Locking.startPane
  | resetRestartBudget => Locking.resetRestartBudget
  | reportViewportAndRecompute => Locking.reportViewportAndRecompute
  | unregisterViewport | attachedClientCount => locked .viewports skip
  | recomputeWindowGeometry => Locking.recomputeWindowGeometry
  | watchWindow => notifyWindowChanged
  | windowIdForPane => windowAndSessionForPane
  | sessionSnapshot => Locking.sessionSnapshot
  | onPane calls => choose fun panes => gathering .panes (panes.take 1) fun held =>
      forEach held fun p => block (calls.map (PaneOp.program p))
  | spawnPane => spawn fun _ => skip
  | drainReplies => some_ fun p => loop (block [lock (.pane p .outbox),
      loop (block [unlock (.pane p .outbox), lock (.pane p .outbox)]),
      unlock (.pane p .outbox), optional (touch p .writer)])

/-- What the daemon's threads can do next. A thread runs any calls, one after the other. -/
def step (s : Pool Lock) (e : Pool.Event (List Op)) : Option (Pool Lock) :=
  s.step dropPane (fun calls => block (calls.map Op.program)) e

end Tymux.Model.Locking
