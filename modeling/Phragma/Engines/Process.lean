import Phragma.Lib.Machine
import Mathlib.Data.List.Count
import Mathlib.Order.Basic
import Mathlib.Tactic.Common

/-!
# Phragma.Engines.Process

**Child process supervision**: the `procManager` of `internal/engines/process.go`.

A run is any interleaving of what happens to one manager. Everything that reads or writes the
manager's fields does so under its mutex, so a step is one stretch under the mutex, or the exit
of a child. `stopLocked` keeps the mutex while it waits for the child it has signalled, and
`restart` keeps it over `stopLocked` and the start that follows; children may exit in the
meantime. `restart` gives the mutex up for its grace sleep. Every child has a waiter, which takes
the mutex once when the child has exited, and once more after a delay if it is to start the engine
again.

Children are numbered in the order of their starts, and are never removed: a child stands here
together with its waiter.
-/

namespace Phragma.Engines

open Lib

/-! ### The manager and its children

The fields are those of the source, less the channel `done`, which is the waiter's place here, and
the restart delay, which only says how long a waiter sleeps. Time is what the calls are given. -/

/-- The states that the manager shows to an operator, the `ProcessState…` constants. Nothing but the
status reads them. -/
inductive ProcessState
  | stopped
  | running
  | restarting
  | failed
  deriving DecidableEq, Repr

/-- The fields of `procManager` that nothing writes. Durations are in nanoseconds. -/
structure ProcConfig where
  maxRestarts : Int
  startGrace : Int

/-- `restartLimit`: the number of automatic restarts between two calls of `restart`, three unless
one is set. -/
def ProcConfig.restartLimit (cfg : ProcConfig) : Nat :=
  if 0 < cfg.maxRestarts then cfg.maxRestarts.toNat else 3

/-- `startupGrace`: how long a child must have run for its exit not to count as a failed start, half
a second unless one is set. -/
def ProcConfig.startupGrace (cfg : ProcConfig) : Int :=
  if 0 < cfg.startGrace then cfg.startGrace else 500000000

/-- The fields of `procManager` that change. The current child is given by its number; zero times
and the empty state are `none`. The generation goes up with every stop and every start, so that a
waiter can tell from the one it was given whether the manager has gone on without its child. -/
structure ProcManager where
  cmd : Option Nat
  gen : Nat
  name : String
  args : List String
  restarts : Nat
  state : Option ProcessState
  lastStarted : Option Int
  lastExit : Option Int
  lastError : String
  lastUptime : Int
  deriving DecidableEq, Repr

/-- Where the goroutine `wait` of a child is. -/
inductive Waiter
  /-- In `cmd.Wait`. -/
  | waiting
  /-- `done` is closed; before its first critical section. -/
  | exited (err : Option String) (uptime : Int)
  /-- In the sleep before its second critical section. -/
  | delaying (name : String) (args : List String) (attempt : Nat)
  | returned
  deriving DecidableEq, Repr

/-- A started child: the generation its waiter was given, whether it was signalled to stop, and
its waiter. -/
structure Child where
  gen : Nat
  signalled : Bool
  waiter : Waiter
  deriving DecidableEq, Repr

/-- The waiter is to start the engine again. -/
def Child.delays (ch : Child) : Bool :=
  match ch.waiter with
  | .delaying _ _ _ => true
  | _ => false

/-- A `stopLocked` that waits for the child it has signalled, and what the `restart` it is part of
goes on with. It holds the mutex. -/
structure StopLocked where
  child : Option Nat
  next : Option (String × List String)
  deriving DecidableEq, Repr

/-- A manager, its children, and the calls that are under way: the one that holds the mutex, and
those of `restart` in their grace sleep. -/
structure World where
  proc : ProcManager
  children : List Child
  holder : Option StopLocked
  graces : List (String × Nat)
  deriving DecidableEq, Repr

/-- A new manager: no child was ever started, and nothing was counted. -/
def World.init : World where
  proc :=
    { cmd := none, gen := 0, name := "", args := [], restarts := 0, state := none,
      lastStarted := none, lastExit := none, lastError := "", lastUptime := 0 }
  children := []
  holder := none
  graces := []

/-! ### The methods

Each method is what it does in one stretch under the mutex. `restart` is two of them, `stopLocked`
and, once the wait is over, the rest; `wait` is two as well, before and after its delay. -/

/-- `stopLocked`, up to its wait. The generation goes up even when there is no child: this is what
calls off a restart that is still in its delay. -/
def stopLocked (next : Option (String × List String)) (w : World) : World where
  proc := { w.proc with gen := w.proc.gen + 1, state := some .stopped, cmd := none }
  children :=
    match w.proc.cmd with
    | none => w.children
    | some c => w.children.modify c fun ch => { ch with signalled := true }
  holder := some ⟨w.proc.cmd, next⟩
  graces := w.graces

/-- The fields `restart` clears between `stopLocked` and `startLocked`: the count of restarts, and
what is known of the last exit. -/
def resetProc (p : ProcManager) : ProcManager :=
  { p with restarts := 0, lastExit := none, lastError := "", lastUptime := 0 }

/-- `startLocked`, on the manager, where `cmd.Start` has given child `c` at time `now`. -/
def startedProc (name : String) (args : List String) (c : Nat) (now : Int) (p : ProcManager) :
    ProcManager :=
  { p with
    cmd := some c, gen := p.gen + 1, name, args, state := some .running, lastStarted := some now }

/-- The child of a `startLocked`: of the new generation, not signalled, and running. -/
def startedChild (p : ProcManager) : Child := ⟨p.gen + 1, false, .waiting⟩

/-- What a call returns. -/
inductive Returned
  | stop
  | restart (err : Option String)
  deriving DecidableEq, Repr

/-- `restart`, from the end of `stopLocked` to its grace sleep. `start` is what `cmd.Start` gives:
the time, or an error. -/
def restartLocked (name : String) (args : List String) (start : Except String Int) (w : World) :
    Option Returned × World :=
  match start with
  | .error err =>
      (some (.restart (some ("start " ++ name ++ ": " ++ err))),
        { w with proc := resetProc w.proc, holder := none })
  | .ok now =>
      (none,
        { proc := startedProc name args w.children.length now (resetProc w.proc)
          children := w.children ++ [startedChild (resetProc w.proc)]
          holder := none
          graces := w.graces ++ [(name, w.proc.gen + 1)] })

/-- The `done` that `stopLocked` waits for is closed. -/
def World.done (w : World) (child : Option Nat) : Bool :=
  match child with
  | none => true
  | some c =>
      match w.children[c]? with
      | none => true
      | some ch => ch.waiter != .waiting

/-- The first critical section of `wait`, for child `c`: an exit of the current child takes it out,
and is followed by a restart if the child had run long enough and the budget is not used up. Of any
other child the manager takes no notice. -/
def waitFirst (cfg : ProcConfig) (c : Nat) (ch : Child) (err : Option String) (uptime now : Int)
    (w : World) : World :=
  if w.proc.gen = ch.gen ∧ w.proc.cmd = some c then
    let proc :=
      { w.proc with
        cmd := none, lastExit := some now, lastUptime := uptime
        lastError := err.getD "process exited" }
    if cfg.startupGrace ≤ uptime ∧ w.proc.restarts < cfg.restartLimit then
      { w with
        proc := { proc with restarts := proc.restarts + 1, state := some .restarting }
        children := w.children.set c
          { ch with waiter := .delaying proc.name proc.args (proc.restarts + 1) } }
    else
      { w with
        proc := { proc with state := some .failed }
        children := w.children.set c { ch with waiter := .returned } }
  else { w with children := w.children.set c { ch with waiter := .returned } }

/-- The second critical section of `wait`, for child `c`: the restart, unless the manager was
stopped or has another child by now. It keeps the count, which `restart` alone resets. -/
def waitSecond (c : Nat) (ch : Child) (name : String) (args : List String)
    (start : Except String Int) (w : World) : World :=
  if w.proc.gen ≠ ch.gen ∨ w.proc.cmd ≠ none then
    { w with children := w.children.set c { ch with waiter := .returned } }
  else
    match start with
    | .error err =>
        { w with
          proc :=
            { w.proc with
              state := some .failed, lastError := "start " ++ name ++ ": " ++ err }
          children := w.children.set c { ch with waiter := .returned } }
    | .ok now =>
        { w with
          proc := startedProc name args w.children.length now w.proc
          children := w.children.set c { ch with waiter := .returned } ++ [startedChild w.proc] }

/-! ### Runs

A run is a list of moves, each by whoever gets the mutex next. Nothing is assumed of their order; a
move that is not possible in a state does nothing. -/

/-- What can happen: a call takes the mutex or goes on with it, a grace sleep ends, a child exits,
or a waiter takes the mutex. -/
inductive Move
  /-- A call of `restart` takes the mutex. -/
  | restart (name : String) (args : List String)
  /-- A call of `stop` takes the mutex. -/
  | stop
  /-- The wait of `stopLocked` ends, by `done` or by its timeouts; a `restart` goes on to its
  start. -/
  | resume (timedOut : Bool) (start : Except String Int)
  /-- A grace sleep ends. -/
  | grace (i : Nat)
  /-- Child `c` exits. -/
  | exit (c : Nat) (err : Option String) (uptime : Int)
  /-- The waiter of child `c` takes the mutex after the exit. -/
  | watch (c : Nat) (now : Int)
  /-- The waiter of child `c` takes the mutex after its delay. -/
  | relaunch (c : Nat) (start : Except String Int)

/-- One step. What cannot happen in a state leaves it as it is. -/
def procStep (cfg : ProcConfig) : Move → World → Option Returned × World
  | .restart name args, w =>
      match w.holder with
      | some _ => (none, w)
      | none => (none, stopLocked (some (name, args)) w)
  | .stop, w =>
      match w.holder with
      | some _ => (none, w)
      | none => (none, stopLocked none w)
  | .resume timedOut start, w =>
      match w.holder with
      | none => (none, w)
      | some sec =>
          if timedOut || w.done sec.child then
            match sec.next with
            | none => (some .stop, { w with holder := none })
            | some (name, args) => restartLocked name args start w
          else (none, w)
  | .grace i, w =>
      match w.holder, w.graces[i]? with
      | none, some (name, gen) =>
          (some (.restart
            (if w.proc.gen ≠ gen ∨ w.proc.cmd = none then
              some (name ++ " exited immediately after start (see logs)")
            else none)),
            { w with graces := w.graces.eraseIdx i })
      | _, _ => (none, w)
  | .exit c err uptime, w =>
      match w.children[c]? with
      | some ch =>
          if ch.waiter = .waiting then
            (none, { w with children := w.children.set c { ch with waiter := .exited err uptime } })
          else (none, w)
      | none => (none, w)
  | .watch c now, w =>
      match w.holder, w.children[c]? with
      | none, some ch =>
          match ch.waiter with
          | .exited err uptime => (none, waitFirst cfg c ch err uptime now w)
          | _ => (none, w)
      | _, _ => (none, w)
  | .relaunch c start, w =>
      match w.holder, w.children[c]? with
      | none, some ch =>
          match ch.waiter with
          | .delaying name args _ => (none, waitSecond c ch name args start w)
          | _ => (none, w)
      | _, _ => (none, w)

/-- The move is a call of `restart`. -/
def Move.isRestart : Move → Bool
  | .restart _ _ => true
  | _ => false

/-- The move is the exit of child `c`, or one of its waiter. -/
def Move.OfExit (c : Nat) (m : Move) : Prop :=
  (∃ err uptime, m = .exit c err uptime) ∨ (∃ now, m = .watch c now) ∨
    ∃ start, m = .relaunch c start

/-- **What a step can do.** Each case names what it requires of the state before it and what it
makes of it. The invariants are all read off these cases, none of them off the methods. -/
inductive Stepped (cfg : ProcConfig) (w w' : World) : Move → Prop
  /-- The move is not possible here, or a grace sleep ended. -/
  | quiet {m : Move} (hproc : w'.proc = w.proc) (hchildren : w'.children = w.children)
      (hholder : w'.holder = w.holder) : Stepped cfg w w' m
  /-- A call of `restart` or `stop` begins. -/
  | stopping {m : Move} (next : Option (String × List String)) (hfree : w.holder = none)
      (hm : m = .stop ∧ next = none ∨ m.isRestart ∧ next.isSome) (hw : w' = stopLocked next w) :
      Stepped cfg w w' m
  /-- A call of `stop` returns. -/
  | stopped {timedOut : Bool} {start : Except String Int} (sec : StopLocked)
      (hheld : w.holder = some sec) (hnext : sec.next = none) (hproc : w'.proc = w.proc)
      (hchildren : w'.children = w.children) (hholder : w'.holder = none) :
      Stepped cfg w w' (.resume timedOut start)
  /-- The start of a `restart` fails. -/
  | refused {timedOut : Bool} {start : Except String Int} (sec : StopLocked)
      (hheld : w.holder = some sec) (hnext : sec.next.isSome)
      (hproc : w'.proc = resetProc w.proc) (hchildren : w'.children = w.children)
      (hholder : w'.holder = none) : Stepped cfg w w' (.resume timedOut start)
  /-- The start of a `restart` succeeds. -/
  | restarted {timedOut : Bool} {start : Except String Int} (sec : StopLocked)
      (name : String) (args : List String) (now : Int) (hheld : w.holder = some sec)
      (hnext : sec.next.isSome)
      (hproc : w'.proc = startedProc name args w.children.length now (resetProc w.proc))
      (hchildren : w'.children = w.children ++ [startedChild w.proc])
      (hholder : w'.holder = none) : Stepped cfg w w' (.resume timedOut start)
  /-- A child exits. -/
  | exited (c : Nat) (ch : Child) (err : Option String) (uptime : Int)
      (hch : w.children[c]? = some ch) (hwaiter : ch.waiter = .waiting)
      (hproc : w'.proc = w.proc)
      (hchildren : w'.children = w.children.set c { ch with waiter := .exited err uptime })
      (hholder : w'.holder = w.holder) : Stepped cfg w w' (.exit c err uptime)
  /-- A waiter finds that the manager has gone on without its child. -/
  | ignored {m : Move} (c : Nat) (ch : Child) (hfree : w.holder = none)
      (hch : w.children[c]? = some ch) (hwaiter : ch.waiter ≠ .waiting)
      (hproc : w'.proc = w.proc)
      (hchildren : w'.children = w.children.set c { ch with waiter := .returned })
      (hholder : w'.holder = none) : Stepped cfg w w' m
  /-- A waiter finds that the current child has exited, and will start it again. -/
  | granted (c : Nat) (now : Int) (ch : Child) (waiter : Waiter) (hfree : w.holder = none)
      (hch : w.children[c]? = some ch) (hdelays : ch.delays = false)
      (hgen : w.proc.gen = ch.gen) (hcmd : w.proc.cmd = some c)
      (hlt : w.proc.restarts < cfg.restartLimit)
      (hproc : w'.proc.cmd = none ∧ w'.proc.gen = w.proc.gen ∧
        w'.proc.restarts = w.proc.restarts + 1)
      (hwaiter : ({ ch with waiter := waiter } : Child).delays = true)
      (hchildren : w'.children = w.children.set c { ch with waiter := waiter })
      (hholder : w'.holder = none) : Stepped cfg w w' (.watch c now)
  /-- A waiter finds that the current child has exited, and gives up. -/
  | gaveUp (c : Nat) (now : Int) (ch : Child) (hfree : w.holder = none)
      (hch : w.children[c]? = some ch) (hdelays : ch.delays = false)
      (hgen : w.proc.gen = ch.gen) (hcmd : w.proc.cmd = some c)
      (hproc : w'.proc.cmd = none ∧ w'.proc.gen = w.proc.gen ∧
        w'.proc.restarts = w.proc.restarts)
      (hchildren : w'.children = w.children.set c { ch with waiter := .returned })
      (hholder : w'.holder = none) : Stepped cfg w w' (.watch c now)
  /-- An automatic restart fails. -/
  | unlaunched (c : Nat) (start : Except String Int) (ch : Child) (hfree : w.holder = none)
      (hch : w.children[c]? = some ch) (hdelays : ch.delays = true)
      (hgen : w.proc.gen = ch.gen) (hcmd : w.proc.cmd = none)
      (hproc : w'.proc.cmd = none ∧ w'.proc.gen = w.proc.gen ∧
        w'.proc.restarts = w.proc.restarts)
      (hchildren : w'.children = w.children.set c { ch with waiter := .returned })
      (hholder : w'.holder = none) : Stepped cfg w w' (.relaunch c start)
  /-- An automatic restart. -/
  | relaunched (c : Nat) (start : Except String Int) (ch : Child) (name : String)
      (args : List String) (now : Int) (hfree : w.holder = none)
      (hch : w.children[c]? = some ch) (hdelays : ch.delays = true)
      (hgen : w.proc.gen = ch.gen) (hcmd : w.proc.cmd = none)
      (hproc : w'.proc = startedProc name args w.children.length now w.proc)
      (hchildren : w'.children =
        w.children.set c { ch with waiter := .returned } ++ [startedChild w.proc])
      (hholder : w'.holder = none) : Stepped cfg w w' (.relaunch c start)

/-- The first critical section is `ignored`, `granted` or `gaveUp`. -/
theorem stepped_waitFirst (cfg : ProcConfig) {w : World} {c : Nat} {ch : Child}
    {err : Option String} {uptime : Int} (now : Int) (hfree : w.holder = none)
    (hch : w.children[c]? = some ch) (hwaiter : ch.waiter = .exited err uptime) :
    Stepped cfg w (waitFirst cfg c ch err uptime now w) (.watch c now) := by
  have hdelays : ch.delays = false := by rw [Child.delays, hwaiter]
  unfold waitFirst
  split
  · next hcur =>
      dsimp only
      split
      · next hgrant =>
          exact .granted c now ch _ hfree hch hdelays hcur.1 hcur.2 hgrant.2 ⟨rfl, rfl, rfl⟩ rfl
            rfl hfree
      · exact .gaveUp c now ch hfree hch hdelays hcur.1 hcur.2 ⟨rfl, rfl, rfl⟩ rfl hfree
  · exact .ignored c ch hfree hch (by rw [hwaiter]; exact Waiter.noConfusion) rfl rfl hfree

/-- The second one is `ignored`, `unlaunched` or `relaunched`. -/
theorem stepped_waitSecond (cfg : ProcConfig) {w : World} {c : Nat} {ch : Child} {name : String}
    {args : List String} {attempt : Nat} (start : Except String Int) (hfree : w.holder = none)
    (hch : w.children[c]? = some ch) (hwaiter : ch.waiter = .delaying name args attempt) :
    Stepped cfg w (waitSecond c ch name args start w) (.relaunch c start) := by
  have hdelays : ch.delays = true := by rw [Child.delays, hwaiter]
  unfold waitSecond
  split
  · exact .ignored c ch hfree hch (by rw [hwaiter]; exact Waiter.noConfusion) rfl rfl hfree
  · next hcur =>
      rw [not_or, not_not, not_not] at hcur
      cases start with
      | error err =>
          exact .unlaunched c _ ch hfree hch hdelays hcur.1 hcur.2 ⟨hcur.2, rfl, rfl⟩ rfl hfree
      | ok now =>
          exact .relaunched c _ ch name args now hfree hch hdelays hcur.1 hcur.2 rfl rfl hfree

/-- What comes after the wait is `refused` or `restarted`. -/
theorem stepped_restartLocked (cfg : ProcConfig) {w : World} {sec : StopLocked} (timedOut : Bool)
    (start : Except String Int) (hheld : w.holder = some sec) {name : String}
    {args : List String} (hnext : sec.next = some (name, args)) :
    Stepped cfg w (restartLocked name args start w).2 (.resume timedOut start) := by
  have hsome : sec.next.isSome := by rw [hnext]; rfl
  unfold restartLocked
  cases start with
  | error err => exact .refused sec hheld hsome rfl rfl rfl
  | ok now => exact .restarted sec name args now hheld hsome rfl rfl rfl

/-- Every step is one of the cases. -/
theorem stepped (cfg : ProcConfig) (m : Move) (w : World) :
    Stepped cfg w (procStep cfg m w).2 m := by
  cases m with
  | restart name args =>
      dsimp only [procStep]
      split
      · exact .quiet rfl rfl rfl
      · next hfree => exact .stopping _ hfree (.inr ⟨rfl, rfl⟩) rfl
  | stop =>
      dsimp only [procStep]
      split
      · exact .quiet rfl rfl rfl
      · next hfree => exact .stopping _ hfree (.inl ⟨rfl, rfl⟩) rfl
  -- the call goes on from its wait, to its end or to a new start
  | resume timedOut start =>
      dsimp only [procStep]
      split
      · exact .quiet rfl rfl rfl
      · next sec hheld =>
          split
          · split
            · next hnext => exact .stopped sec hheld hnext rfl rfl rfl
            · next hnext => exact stepped_restartLocked cfg timedOut start hheld hnext
          · exact .quiet rfl rfl rfl
  | grace i =>
      dsimp only [procStep]
      split <;> exact .quiet rfl rfl rfl
  -- a child that has returned already does not return again
  | exit c err uptime =>
      dsimp only [procStep]
      split
      · next ch hch =>
          split
          · next hwaiter => exact .exited c ch err uptime hch hwaiter rfl rfl rfl
          · exact .quiet rfl rfl rfl
      · exact .quiet rfl rfl rfl
  -- the waiter takes the lock, and finds out whether its child is still current
  | watch c now =>
      dsimp only [procStep]
      split
      · next ch hfree hch =>
          split
          · next hwaiter => exact stepped_waitFirst cfg now hfree hch hwaiter
          · exact .quiet rfl rfl rfl
      · exact .quiet rfl rfl rfl
  | relaunch c start =>
      dsimp only [procStep]
      split
      · next ch hfree hch =>
          split
          · next hwaiter => exact stepped_waitSecond cfg start hfree hch hwaiter
          · exact .quiet rfl rfl rfl
      · exact .quiet rfl rfl rfl

/-! ### The invariant

The generations carry it. Every child has the generation of its start, and only the current one, or
one whose restart is due, can have the manager's. So a waiter that compares the two learns whether
anything has happened since. -/

/-- The waiters whose automatic restart is still due: they are in their delay, and the manager has
not gone on since. -/
def World.due (w : World) : Nat := w.children.countP fun ch => ch.delays && ch.gen == w.proc.gen

/-- Every started child that has neither exited nor been signalled to stop is the current one. -/
def World.OnlyCurrent (w : World) : Prop :=
  ∀ c ch, w.children[c]? = some ch → ch.waiter = .waiting → ch.signalled = false →
    w.proc.cmd = some c

/-- What holds in every state of a manager. -/
structure Supervised (cfg : ProcConfig) (w : World) : Prop where
  /-- No waiter was given a later generation. -/
  gen_le : ∀ g ∈ w.children.map Child.gen, g ≤ w.proc.gen
  /-- While the mutex is held, every waiter is of an earlier generation. -/
  held : w.holder ≠ none → ∀ g ∈ w.children.map Child.gen, g < w.proc.gen
  /-- The current child is of the manager's generation. -/
  current : ∀ c, w.proc.cmd = some c → ∃ ch, w.children[c]? = some ch ∧ ch.gen = w.proc.gen
  onlyCurrent : w.OnlyCurrent
  /-- Every restart that is due was counted. -/
  due_le : w.due ≤ w.proc.restarts
  restarts_le : w.proc.restarts ≤ cfg.restartLimit

/-- A new manager has no children, and so nothing to say of them. -/
theorem supervised_init (cfg : ProcConfig) : Supervised cfg World.init where
  gen_le := by intro g hg; cases hg
  held := by intro h; exact (h rfl).elim
  current := by intro c h; cases h
  onlyCurrent := by intro c ch h; cases h
  due_le := Nat.le_refl _
  restarts_le := Nat.zero_le _

section Children

variable {l : List Child} {c d : Nat} {ch new : Child} {waiter : Waiter}

/-- A move of a waiter changes its own child only. -/
theorem getElem?_set_of_some (h : l[c]? = some ch) :
    (l.set c new)[d]? = if c = d then some new else l[d]? := by
  rw [List.getElem?_set]
  split
  · rw [if_pos (List.getElem?_eq_some_iff.mp h).1]
  · rfl

/-- A waiter does not change the generation of its child. -/
theorem map_gen_set (h : l[c]? = some ch) :
    (l.set c { ch with waiter := waiter }).map Child.gen = l.map Child.gen := by
  obtain ⟨hc, rfl⟩ := List.getElem?_eq_some_iff.mp h
  rw [List.map_set]
  refine List.ext_getElem? fun d => ?_
  rw [List.getElem?_set, List.length_map, if_pos hc]
  split
  · next hd =>
      rw [← hd, List.getElem?_map, h]
      rfl
  · rfl

/-- How a count of children changes when one of them does. -/
theorem countP_set_of_some {p : Child → Bool} (h : l[c]? = some ch) :
    (l.set c new).countP p + (if p ch then 1 else 0) = l.countP p + if p new then 1 else 0 := by
  obtain ⟨hc, rfl⟩ := List.getElem?_eq_some_iff.mp h
  rw [List.countP_set hc]
  have hpos : p l[c] = true → 0 < l.countP p := fun hp =>
    List.countP_pos_iff.mpr ⟨l[c], List.getElem_mem hc, hp⟩
  split
  · next hp =>
      have := hpos hp
      omega
  · omega

/-- No restart of an earlier generation is due. -/
theorem countP_due_eq_zero {g : Nat} (h : ∀ x ∈ l.map Child.gen, x < g) :
    l.countP (fun ch => ch.delays && ch.gen == g) = 0 := by
  rw [List.countP_eq_zero]
  intro ch hch heq
  obtain ⟨-, hgen⟩ := Bool.and_eq_true_iff.mp heq
  exact Nat.ne_of_lt (h ch.gen (List.mem_map_of_mem hch)) (beq_iff_eq.mp hgen)

end Children

/-- The only child that `stopLocked` touches is the current one, which it signals. -/
theorem stopLocked_getElem? (next : Option (String × List String)) (w : World) (d : Nat) :
    (stopLocked next w).children[d]? = (w.children[d]?).map fun ch =>
      if w.proc.cmd = some d then { ch with signalled := true } else ch := by
  unfold stopLocked
  cases hcmd : w.proc.cmd with
  | none => simp
  | some c =>
      dsimp only
      rw [List.getElem?_modify]
      by_cases h : c = d
      · simp [h]
      · simp [h]

/-- `stopLocked` does not touch the generations of the children. -/
theorem stopLocked_gens (next : Option (String × List String)) (w : World) :
    (stopLocked next w).children.map Child.gen = w.children.map Child.gen := by
  refine List.ext_getElem? fun d => ?_
  rw [List.getElem?_map, List.getElem?_map, stopLocked_getElem?, Option.map_map]
  congr 1
  funext ch
  dsimp only [Function.comp]
  split <;> rfl

/-- With a start, the new child is the only one to watch. -/
theorem onlyCurrent_append {w : World} (h : w.OnlyCurrent) (hcmd : w.proc.cmd = none)
    {children : List Child} (hlen : children.length = w.children.length)
    (hsame : ∀ (c : Nat) (ch : Child), children[c]? = some ch → ch.waiter = .waiting →
      w.children[c]? = some ch)
    (new : Child) {c : Nat} {ch : Child} (hch : (children ++ [new])[c]? = some ch)
    (hwaiting : ch.waiter = .waiting) (hsignalled : ch.signalled = false) :
    c = w.children.length := by
  by_cases hlt : c < children.length
  · rw [List.getElem?_append_left hlt] at hch
    have := h c ch (hsame c ch hch hwaiting) hwaiting hsignalled
    rw [hcmd] at this
    cases this
  · have hc := (List.getElem?_eq_some_iff.mp hch).1
    rw [List.length_append, List.length_singleton] at hc
    omega

section Step

variable {cfg : ProcConfig} {w w' : World} {m : Move}

/-- While the mutex is held there is no current child. -/
theorem Supervised.cmd_of_held (h : Supervised cfg w) (hheld : w.holder ≠ none) :
    w.proc.cmd = none := by
  cases hcmd : w.proc.cmd with
  | none => rfl
  | some c =>
      obtain ⟨ch, hch, hgen⟩ := h.current c hcmd
      have hlt := h.held hheld ch.gen (List.mem_map_of_mem (List.mem_of_getElem? hch))
      omega

/-- The generations of the children stay, and a start adds the next one. -/
theorem Stepped.gens (hs : Stepped cfg w w' m) :
    (w'.children.map Child.gen = w.children.map Child.gen ∧ w.proc.gen ≤ w'.proc.gen) ∨
      (w'.children.map Child.gen = w.children.map Child.gen ++ [w.proc.gen + 1] ∧
        w'.proc.gen = w.proc.gen + 1) := by
  cases hs with
  | quiet hproc hchildren => exact .inl ⟨by rw [hchildren], Nat.le_of_eq (by rw [hproc])⟩
  | stopping next hfree hm hw =>
      subst hw
      exact .inl ⟨stopLocked_gens next w, Nat.le_succ _⟩
  | stopped sec hheld hnext hproc hchildren =>
      exact .inl ⟨by rw [hchildren], Nat.le_of_eq (by rw [hproc])⟩
  | refused sec hheld hnext hproc hchildren =>
      exact .inl ⟨by rw [hchildren], by rw [hproc]; exact Nat.le_refl _⟩
  | restarted sec name args now hheld hnext hproc hchildren =>
      refine .inr ⟨?_, by rw [hproc]; rfl⟩
      rw [hchildren, List.map_append]
      rfl
  | exited c ch err uptime hch hwaiter hproc hchildren =>
      exact .inl ⟨by rw [hchildren, map_gen_set hch], Nat.le_of_eq (by rw [hproc])⟩
  | ignored c ch hfree hch hwaiter hproc hchildren =>
      exact .inl ⟨by rw [hchildren, map_gen_set hch], Nat.le_of_eq (by rw [hproc])⟩
  | granted c now ch waiter hfree hch hdelays hgen hcmd hlt hproc hwaiter hchildren =>
      exact .inl ⟨by rw [hchildren, map_gen_set hch], Nat.le_of_eq hproc.2.1.symm⟩
  | gaveUp c now ch hfree hch hdelays hgen hcmd hproc hchildren =>
      exact .inl ⟨by rw [hchildren, map_gen_set hch], Nat.le_of_eq hproc.2.1.symm⟩
  | unlaunched c start ch hfree hch hdelays hgen hcmd hproc hchildren =>
      exact .inl ⟨by rw [hchildren, map_gen_set hch], Nat.le_of_eq hproc.2.1.symm⟩
  | relaunched c start ch name args now hfree hch hdelays hgen hcmd hproc hchildren =>
      refine .inr ⟨?_, by rw [hproc]; rfl⟩
      rw [hchildren, List.map_append, map_gen_set hch]
      rfl

/-- A step keeps the generations of the children within that of the manager. -/
theorem gen_le_step (hI : Supervised cfg w) (hs : Stepped cfg w w' m) :
    ∀ g ∈ w'.children.map Child.gen, g ≤ w'.proc.gen := by
  intro g hg
  rcases hs.gens with ⟨hsame, hle⟩ | ⟨hnew, hgen⟩
  · exact Nat.le_trans (hI.gen_le g (hsame ▸ hg)) hle
  · rw [hnew] at hg
    rcases List.mem_append.mp hg with hg | hg
    · have := hI.gen_le g hg
      omega
    · exact Nat.le_of_eq ((List.mem_singleton.mp hg).trans hgen.symm)

/-- Whoever takes the mutex for a wait leaves every generation behind. -/
theorem held_step (hI : Supervised cfg w) (hs : Stepped cfg w w' m) (hheld : w'.holder ≠ none) :
    ∀ g ∈ w'.children.map Child.gen, g < w'.proc.gen := by
  cases hs with
  | quiet hproc hchildren hholder =>
      rw [hproc, hchildren]
      exact hI.held (hholder ▸ hheld)
  | stopping next hfree hm hw =>
      subst hw
      intro g hg
      rw [stopLocked_gens] at hg
      exact Nat.lt_succ_of_le (hI.gen_le g hg)
  | exited c ch err uptime hch hwaiter hproc hchildren hholder =>
      rw [hproc, hchildren, map_gen_set hch]
      exact hI.held (hholder ▸ hheld)
  | _ => exact (hheld ‹w'.holder = none›).elim

/-- A current child is there, with the manager's generation: only a start makes one. -/
theorem current_step (hI : Supervised cfg w) (hs : Stepped cfg w w' m) {c : Nat}
    (hcur : w'.proc.cmd = some c) : ∃ ch, w'.children[c]? = some ch ∧ ch.gen = w'.proc.gen := by
  cases hs with
  | quiet hproc hchildren =>
      rw [hproc] at hcur ⊢
      rw [hchildren]
      exact hI.current c hcur
  | stopping next hfree hm hw =>
      subst hw
      cases hcur
  | stopped sec hheld hnext hproc hchildren =>
      rw [hproc] at hcur ⊢
      rw [hchildren]
      exact hI.current c hcur
  | refused sec hheld hnext hproc hchildren =>
      rw [hproc] at hcur ⊢
      rw [hchildren]
      exact hI.current c hcur
  | restarted sec name args now hheld hnext hproc hchildren =>
      rw [hproc] at hcur ⊢
      obtain rfl := Option.some.inj hcur
      exact ⟨startedChild w.proc, by rw [hchildren, List.getElem?_concat_length], rfl⟩
  | exited d ch err uptime hch hwaiter hproc hchildren =>
      rw [hproc] at hcur ⊢
      rw [hchildren, getElem?_set_of_some hch]
      obtain ⟨cur, hc, hgen⟩ := hI.current c hcur
      -- the entry that is written keeps its generation
      by_cases hd : d = c
      · subst hd
        obtain rfl := Option.some.inj (hch.symm.trans hc)
        exact ⟨_, if_pos rfl, hgen⟩
      · exact ⟨cur, by rw [if_neg hd, hc], hgen⟩
  | ignored d ch hfree hch hwaiter hproc hchildren =>
      rw [hproc] at hcur ⊢
      rw [hchildren, getElem?_set_of_some hch]
      obtain ⟨cur, hc, hgen⟩ := hI.current c hcur
      by_cases hd : d = c
      · subst hd
        obtain rfl := Option.some.inj (hch.symm.trans hc)
        exact ⟨_, if_pos rfl, hgen⟩
      · exact ⟨cur, by rw [if_neg hd, hc], hgen⟩
  -- the new child stands at the end of the table, and `cmd` points there
  | relaunched d start ch name args now hfree hch hdelays hgen hcmd hproc hchildren =>
      rw [hproc] at hcur ⊢
      obtain rfl := Option.some.inj hcur
      refine ⟨startedChild w.proc, ?_, rfl⟩
      rw [hchildren, ← List.length_set, List.getElem?_concat_length]
  -- a waiter that goes on has set `cmd` to nothing
  | granted d now ch waiter hfree hch hdelays hgen hcmd hlt hproc =>
      rw [hproc.1] at hcur
      cases hcur
  | gaveUp d now ch hfree hch hdelays hgen hcmd hproc =>
      rw [hproc.1] at hcur
      cases hcur
  | unlaunched d start ch hfree hch hdelays hgen hcmd hproc =>
      rw [hproc.1] at hcur
      cases hcur

/-- A child that is still to be watched after a move of a waiter was so before, and is another
one. -/
theorem watched_of_set {l : List Child} {c d : Nat} {ch new x : Child} (h : l[c]? = some ch)
    (hnew : new.waiter ≠ .waiting) (hx : (l.set c new)[d]? = some x)
    (hwaiting : x.waiter = .waiting) : d ≠ c ∧ l[d]? = some x := by
  rw [getElem?_set_of_some h] at hx
  split at hx
  · obtain rfl := Option.some.inj hx
    exact (hnew hwaiting).elim
  · next hd => exact ⟨fun he => hd he.symm, hx⟩

/-- A step leaves no running child that is neither current nor signalled. A start is the only way to
a new one, and it finds no current child: either the mutex was held since a `stopLocked`, or the
waiter has checked. -/
theorem onlyCurrent_step (hI : Supervised cfg w) (hs : Stepped cfg w w' m) : w'.OnlyCurrent := by
  intro c ch hch hwaiting hsignalled
  have hnone : w.proc.cmd = none → w.children[c]? ≠ some ch := fun hcmd hc => by
    have := hI.onlyCurrent c ch hc hwaiting hsignalled
    rw [hcmd] at this
    cases this
  cases hs with
  | quiet hproc hchildren =>
      rw [hchildren] at hch
      rw [hproc]
      exact hI.onlyCurrent c ch hch hwaiting hsignalled
  -- the call signals the current child, the only one that was left
  | stopping next hfree hm hw =>
      subst hw
      rw [stopLocked_getElem?] at hch
      obtain ⟨old, hold, rfl⟩ := Option.map_eq_some_iff.mp hch
      split at hwaiting
      · next hcmd => rw [if_pos hcmd] at hsignalled; cases hsignalled
      · next hcmd =>
          rw [if_neg hcmd] at hsignalled
          exact (hcmd (hI.onlyCurrent c old hold hwaiting hsignalled)).elim
  | stopped sec hheld hnext hproc hchildren =>
      rw [hchildren] at hch
      rw [hproc]
      exact hI.onlyCurrent c ch hch hwaiting hsignalled
  | refused sec hheld hnext hproc hchildren =>
      rw [hchildren] at hch
      rw [hproc]
      exact hI.onlyCurrent c ch hch hwaiting hsignalled
  -- nothing ran while the call held the manager, so the child that was started is alone
  | restarted sec name args now hheld hnext hproc hchildren =>
      have hcmd := hI.cmd_of_held (by rw [hheld]; exact Option.some_ne_none sec)
      rw [hchildren] at hch
      have hc := onlyCurrent_append hI.onlyCurrent hcmd rfl (fun _ _ h _ => h) _ hch hwaiting
        hsignalled
      rw [hproc, hc]
      rfl
  | exited d old err uptime hold hwaiter hproc hchildren =>
      rw [hchildren] at hch
      rw [hproc]
      have hw := watched_of_set hold Waiter.noConfusion hch hwaiting
      exact hI.onlyCurrent c ch hw.2 hwaiting hsignalled
  | ignored d old hfree hold hwaiter hproc hchildren =>
      rw [hchildren] at hch
      rw [hproc]
      have hw := watched_of_set hold Waiter.noConfusion hch hwaiting
      exact hI.onlyCurrent c ch hw.2 hwaiting hsignalled
  -- the entry that changed was the current child's
  | granted d now old waiter hfree hold hdelays hgen hcmd hlt hproc hwaiter hchildren =>
      rw [hchildren] at hch
      have hne : waiter ≠ .waiting := by
        rintro rfl
        cases hwaiter
      have hw := watched_of_set hold hne hch hwaiting
      have hcur := hI.onlyCurrent c ch hw.2 hwaiting hsignalled
      rw [hcmd] at hcur
      exact (hw.1 (Option.some.inj hcur).symm).elim
  | gaveUp d now old hfree hold hdelays hgen hcmd hproc hchildren =>
      rw [hchildren] at hch
      have hw := watched_of_set hold Waiter.noConfusion hch hwaiting
      have hcur := hI.onlyCurrent c ch hw.2 hwaiting hsignalled
      rw [hcmd] at hcur
      exact (hw.1 (Option.some.inj hcur).symm).elim
  -- between two starts no child is left
  | unlaunched d start old hfree hold hdelays hgen hcmd hproc hchildren =>
      rw [hchildren] at hch
      exact (hnone hcmd (watched_of_set hold Waiter.noConfusion hch hwaiting).2).elim
  | relaunched d start old name args now hfree hold hdelays hgen hcmd hproc hchildren =>
      rw [hchildren] at hch
      have hc := onlyCurrent_append hI.onlyCurrent hcmd List.length_set
        (fun _ _ h hw => (watched_of_set hold Waiter.noConfusion h hw).2) _ hch hwaiting hsignalled
      rw [hproc, hc]
      rfl

/-! ### The budget

A restart is *due* from the moment its waiter counts it to the moment its waiter is through with it, or
the manager has gone on. What was counted and is not due any more is *spent*. A step moves restarts
between the two in one of four ways (`Booked`), and everything about the budget is read off these. -/

/-- Nothing is due after a start. -/
theorem due_append {l : List Child} {p : ProcManager} (h : ∀ x ∈ l.map Child.gen, x ≤ p.gen) :
    (l ++ [startedChild p]).countP (fun ch => ch.delays && ch.gen == p.gen + 1) = 0 := by
  rw [List.countP_append, countP_due_eq_zero fun x hx => Nat.lt_succ_of_le (h x hx)]
  rfl

/-- While the mutex is held, every restart that was due has been called off. -/
theorem Supervised.due_of_held (hI : Supervised cfg w) (hheld : w.holder ≠ none) : w.due = 0 :=
  countP_due_eq_zero (hI.held hheld)

/-- So it is as soon as a call begins. -/
theorem due_stopLocked (hI : Supervised cfg w) (next : Option (String × List String)) :
    (stopLocked next w).due = 0 := by
  apply countP_due_eq_zero
  rw [stopLocked_gens]
  exact fun g hg => Nat.lt_succ_of_le (hI.gen_le g hg)

/-- The count depends on the children and the manager's generation alone. -/
theorem due_of_kept (hgen : w'.proc.gen = w.proc.gen) (hchildren : w'.children = w.children) :
    w'.due = w.due := by
  unfold World.due
  rw [hgen, hchildren]

/-- A move of one waiter takes its restart off the count, if it was due, and adds it, if it is. -/
theorem due_waiter {c : Nat} {ch : Child} {waiter : Waiter} (hch : w.children[c]? = some ch)
    (hgen : w'.proc.gen = w.proc.gen)
    (hchildren : w'.children = w.children.set c { ch with waiter := waiter }) :
    w'.due + (if ch.delays && ch.gen == w.proc.gen then 1 else 0) =
      w.due +
        if ({ ch with waiter := waiter } : Child).delays && ch.gen == w.proc.gen then 1 else 0 := by
  unfold World.due
  rw [hgen, hchildren]
  exact countP_set_of_some (p := fun ch => ch.delays && ch.gen == w.proc.gen) hch

/-- A waiter that has come to its end is not due. -/
theorem due_returned {c : Nat} {ch : Child} (hch : w.children[c]? = some ch)
    (hgen : w'.proc.gen = w.proc.gen)
    (hchildren : w'.children = w.children.set c { ch with waiter := .returned }) :
    w'.due ≤ w.due :=
  Nat.le_trans (Nat.le_add_right _ _) (Nat.le_of_eq (due_waiter hch hgen hchildren))

/-- A waiter that is in its delay and finds its generation unchanged was due. -/
theorem due_pos {c : Nat} {ch : Child} (hch : w.children[c]? = some ch) (hdelays : ch.delays = true)
    (hgen : w.proc.gen = ch.gen) : 0 < w.due := by
  refine List.countP_pos_iff.mpr ⟨ch, List.mem_of_getElem? hch, ?_⟩
  rw [hdelays, hgen, beq_self_eq_true]
  rfl

/-- A `restart` has stopped the engine and not yet come to its start. -/
def World.restarting (w : World) : Bool :=
  match w.holder with
  | some sec => sec.next.isSome
  | none => false

theorem restarting_of_free (h : w.holder = none) : w.restarting = false := by
  rw [World.restarting, h]

theorem restarting_of_held {sec : StopLocked} (h : w.holder = some sec) :
    w.restarting = sec.next.isSome := by
  rw [World.restarting, h]

/-- The automatic restarts that were counted and have come to their end. -/
def World.spent (w : World) : Nat := if w.restarting then 0 else w.proc.restarts - w.due

theorem spent_of_not_restarting (h : w.restarting = false) : w.spent = w.proc.restarts - w.due := by
  rw [World.spent, h]
  rfl

/-- During a `restart` nothing counts as spent. -/
theorem spent_le (w : World) : w.spent ≤ w.proc.restarts - w.due := by
  unfold World.spent
  split
  · exact Nat.zero_le _
  · exact Nat.le_refl _

/-- The engine was started by a waiter. -/
def automatic (m : Move) (w w' : World) : Bool :=
  match m with
  | .relaunch _ _ => decide (w.children.length < w'.children.length)
  | _ => false

/-- A step that starts nothing starts nothing automatically. -/
theorem automatic_of_length (h : w'.children.length = w.children.length) :
    automatic m w w' = false := by
  unfold automatic
  split
  · rw [h, decide_eq_false (Nat.lt_irrefl _)]
  · rfl

/-- **What a step does to the budget.** -/
inductive Booked (cfg : ProcConfig) (m : Move) (w w' : World) : Prop
  /-- Nothing is counted. What was due may have come to its end. -/
  | kept (hquiet : automatic m w w' = false) (hrestarts : w'.proc.restarts = w.proc.restarts)
      (hdue : w'.due ≤ w.due)
      (hbusy : m.isRestart = false → w'.restarting = true → w.restarting = true) :
      Booked cfg m w w'
  /-- A waiter counts a restart, which is due from now on. -/
  | granted (hquiet : automatic m w w' = false) (hlt : w.proc.restarts < cfg.restartLimit)
      (hrestarts : w'.proc.restarts = w.proc.restarts + 1) (hdue : w'.due = w.due + 1)
      (hfree : w'.restarting = false) : Booked cfg m w w'
  /-- A waiter starts the engine. Its own restart was due, and none is after a start. -/
  | relaunched (hpos : 0 < w.due) (hrestarts : w'.proc.restarts = w.proc.restarts)
      (hdue : w'.due = 0) (hfree : w'.restarting = false) : Booked cfg m w w'
  /-- A `restart` begins a new count. -/
  | renewed (hquiet : automatic m w w' = false) (hbusy : w.restarting = true)
      (hrestarts : w'.proc.restarts = 0) (hdue : w'.due = 0) : Booked cfg m w w'

/-- Every step does one of these. The generation decides: a step that raises it lets everything that
was due come to its end. -/
theorem booked (hI : Supervised cfg w) (hs : Stepped cfg w w' m) : Booked cfg m w w' := by
  cases hs with
  | quiet hproc hchildren hholder =>
      refine .kept (automatic_of_length (by rw [hchildren])) (by rw [hproc])
        (Nat.le_of_eq (due_of_kept (by rw [hproc]) hchildren)) fun _ hbusy => ?_
      rwa [World.restarting, hholder] at hbusy
  | stopping next hfree hm hw =>
      subst hw
      have hlen := congrArg List.length (stopLocked_gens next w)
      rw [List.length_map, List.length_map] at hlen
      refine .kept (automatic_of_length hlen) rfl ?_ fun hm' hbusy => ?_
      · rw [due_stopLocked hI next]
        exact Nat.zero_le _
      · -- only a `restart` has something to go on with
        rcases hm with ⟨-, rfl⟩ | ⟨hm, -⟩
        · cases hbusy
        · rw [hm'] at hm
          cases hm
  | stopped sec hheld hnext hproc hchildren hholder =>
      refine .kept rfl (by rw [hproc]) (Nat.le_of_eq (due_of_kept (by rw [hproc]) hchildren))
        fun _ hbusy => ?_
      rw [restarting_of_free hholder] at hbusy
      cases hbusy
  -- a `restart` renews the budget, whether its start succeeds or not
  | refused sec hheld hnext hproc hchildren hholder =>
      have hdue := hI.due_of_held (hheld ▸ Option.some_ne_none sec)
      refine .renewed rfl ((restarting_of_held hheld).trans hnext) (by rw [hproc]; rfl) ?_
      rw [due_of_kept (by rw [hproc]; rfl) hchildren, hdue]
  | restarted sec name args now hheld hnext hproc hchildren hholder =>
      refine .renewed rfl ((restarting_of_held hheld).trans hnext) (by rw [hproc]; rfl) ?_
      unfold World.due
      rw [hproc, hchildren]
      exact due_append hI.gen_le
  | exited c ch err uptime hch hwaiter hproc hchildren hholder =>
      have hdelays : ch.delays = false := by rw [Child.delays, hwaiter]
      have hdue := due_waiter hch (by rw [hproc]) hchildren
      rw [hdelays] at hdue
      refine .kept rfl (by rw [hproc]) (Nat.le_of_eq hdue) fun _ hbusy => ?_
      rwa [World.restarting, hholder] at hbusy
  | ignored c ch hfree hch hwaiter hproc hchildren hholder =>
      refine .kept (automatic_of_length (by rw [hchildren, List.length_set])) (by rw [hproc])
        (due_returned hch (by rw [hproc]) hchildren) fun _ hbusy => ?_
      rw [restarting_of_free hholder] at hbusy
      cases hbusy
  -- one restart is counted, and becomes due with it
  | granted c now ch waiter hfree hch hdelays hgen hcmd hlt hproc hwaiter hchildren hholder =>
      have hdue := due_waiter hch hproc.2.1 hchildren
      rw [hdelays, hwaiter, hgen, beq_self_eq_true] at hdue
      exact .granted rfl hlt hproc.2.2 hdue (restarting_of_free hholder)
  | gaveUp c now ch hfree hch hdelays hgen hcmd hproc hchildren hholder =>
      refine .kept rfl hproc.2.2 (due_returned hch hproc.2.1 hchildren) fun _ hbusy => ?_
      rw [restarting_of_free hholder] at hbusy
      cases hbusy
  | unlaunched c start ch hfree hch hdelays hgen hcmd hproc hchildren hholder =>
      refine .kept (automatic_of_length (by rw [hchildren, List.length_set])) hproc.2.2
        (due_returned hch hproc.2.1 hchildren) fun _ hbusy => ?_
      rw [restarting_of_free hholder] at hbusy
      cases hbusy
  -- the restart that was due is made
  | relaunched c start ch name args now hfree hch hdelays hgen hcmd hproc hchildren hholder =>
      refine .relaunched (due_pos hch hdelays hgen) (by rw [hproc]; rfl) ?_
        (restarting_of_free hholder)
      unfold World.due
      rw [hproc, hchildren]
      exact due_append (by rw [map_gen_set hch]; exact hI.gen_le)

/-- **The budget.** Every restart that is due was counted, and what was counted stays within the
limit. Without a call of `restart`, what is spent never goes down, and an automatic restart spends
one more. -/
theorem Booked.budget (h : Booked cfg m w w') (hdue : w.due ≤ w.proc.restarts)
    (hlimit : w.proc.restarts ≤ cfg.restartLimit) :
    w'.due ≤ w'.proc.restarts ∧ w'.proc.restarts ≤ cfg.restartLimit ∧
      (m.isRestart = false → w.spent + (if automatic m w w' then 1 else 0) ≤ w'.spent) := by
  have hspent := spent_le w
  cases h with
  | kept hquiet hrestarts hdue' hbusy =>
      rw [hquiet, hrestarts]
      refine ⟨Nat.le_trans hdue' hdue, hlimit, fun hm => ?_⟩
      cases hafter : w'.restarting with
      | true =>
          have hzero : w.spent = 0 := by
            rw [World.spent, hbusy hm hafter]
            rfl
          rw [hzero]
          exact Nat.zero_le _
      | false =>
          rw [spent_of_not_restarting hafter, hrestarts]
          exact Nat.le_trans hspent (Nat.sub_le_sub_left hdue' _)
  | granted hquiet hlt hrestarts hdue' hfree =>
      rw [hquiet, hdue', hrestarts]
      refine ⟨Nat.succ_le_succ hdue, hlt, fun _ => ?_⟩
      rw [spent_of_not_restarting hfree, hdue', hrestarts, Nat.add_sub_add_right]
      exact hspent
  | relaunched hpos hrestarts hdue' hfree =>
      rw [hdue', hrestarts]
      refine ⟨Nat.zero_le _, hlimit, fun _ => ?_⟩
      rw [spent_of_not_restarting hfree, hdue', hrestarts]
      split <;> omega
  | renewed hquiet hbusy hrestarts hdue' =>
      rw [hquiet, hdue', hrestarts]
      refine ⟨Nat.zero_le _, Nat.zero_le _, fun _ => ?_⟩
      rw [World.spent, hbusy]
      exact Nat.zero_le _

/-- What `Booked.budget` says, of a step from a supervised state. -/
theorem budget_step (hI : Supervised cfg w) (hs : Stepped cfg w w' m) :
    w'.due ≤ w'.proc.restarts ∧ w'.proc.restarts ≤ cfg.restartLimit ∧
      (m.isRestart = false → w.spent + (if automatic m w w' then 1 else 0) ≤ w'.spent) :=
  (booked hI hs).budget hI.due_le hI.restarts_le

/-! ### One step -/

/-- **Every step keeps the invariant.** -/
theorem Supervised.step (hI : Supervised cfg w) (hs : Stepped cfg w w' m) : Supervised cfg w' where
  gen_le := gen_le_step hI hs
  held := held_step hI hs
  current := fun _ hcur => current_step hI hs hcur
  onlyCurrent := onlyCurrent_step hI hs
  due_le := (budget_step hI hs).1
  restarts_le := (budget_step hI hs).2.1

/-! ### After a stop

A waiter acts on its child only as long as the generations agree. Once the manager's is above them
all and no `restart` is under way, there is nobody left who could start anything. -/

/-- The manager is stopped for good: no `restart` is under way, and every waiter is of an earlier
generation. -/
structure Idle (w : World) : Prop where
  next : ∀ sec, w.holder = some sec → sec.next = none
  old : ∀ g ∈ w.children.map Child.gen, g < w.proc.gen

/-- The comparison that a waiter makes of an idle manager fails. -/
theorem Idle.gen_ne {c : Nat} {ch : Child} (h : Idle w) (hch : w.children[c]? = some ch) :
    w.proc.gen ≠ ch.gen :=
  (Nat.ne_of_lt (h.old ch.gen (List.mem_map_of_mem (List.mem_of_getElem? hch)))).symm

/-- Without the mutex held no `restart` is under way. -/
theorem idle_of_free (hfree : w.holder = none)
    (hold : ∀ g ∈ w.children.map Child.gen, g < w.proc.gen) : Idle w where
  next := by
    intro sec hsec
    rw [hfree] at hsec
    cases hsec
  old := hold

/-- **An idle manager starts nothing**, and stays so until a call of `restart`. -/
theorem Idle.step (hI : Idle w) (hs : Stepped cfg w w' m) (hm : m.isRestart = false) :
    Idle w' ∧ w'.children.length = w.children.length := by
  cases hs with
  | quiet hproc hchildren hholder =>
      refine ⟨⟨by rw [hholder]; exact hI.next, ?_⟩, by rw [hchildren]⟩
      rw [hproc, hchildren]
      exact hI.old
  | stopping next hfree hcall hw =>
      subst hw
      have hnext : next = none := by
        rcases hcall with ⟨-, rfl⟩ | ⟨hcall, -⟩
        · rfl
        · rw [hm] at hcall
          cases hcall
      refine ⟨⟨?_, ?_⟩, ?_⟩
      · rintro sec hsec
        rw [← Option.some.inj hsec]
        exact hnext
      · rw [stopLocked_gens]
        exact fun g hg => Nat.lt_succ_of_lt (hI.old g hg)
      · have hlen := congrArg List.length (stopLocked_gens next w)
        rwa [List.length_map, List.length_map] at hlen
  | stopped sec hheld hnext hproc hchildren hholder =>
      refine ⟨idle_of_free hholder ?_, by rw [hchildren]⟩
      rw [hproc, hchildren]
      exact hI.old
  -- after a `stop` there is no call to go on with
  | refused sec hheld hnext =>
      rw [hI.next sec hheld] at hnext
      cases hnext
  | restarted sec name args now hheld hnext =>
      rw [hI.next sec hheld] at hnext
      cases hnext
  | exited c ch err uptime hch hwaiter hproc hchildren hholder =>
      refine ⟨⟨by rw [hholder]; exact hI.next, ?_⟩, by rw [hchildren, List.length_set]⟩
      rw [hproc, hchildren, map_gen_set hch]
      exact hI.old
  | ignored c ch hfree hch hwaiter hproc hchildren hholder =>
      refine ⟨idle_of_free hholder ?_, by rw [hchildren, List.length_set]⟩
      rw [hproc, hchildren, map_gen_set hch]
      exact hI.old
  -- no child is of the generation of the manager any more
  | granted c now ch waiter hfree hch hdelays hgen => exact (hI.gen_ne hch hgen).elim
  | gaveUp c now ch hfree hch hdelays hgen => exact (hI.gen_ne hch hgen).elim
  | unlaunched c start ch hfree hch hdelays hgen => exact (hI.gen_ne hch hgen).elim
  | relaunched c start ch name args now hfree hch hdelays hgen => exact (hI.gen_ne hch hgen).elim

/-! ### Children the manager has gone on from

A replaced child may still be running, and exit at any time later. Its waiter then finds another
generation, or another current child. -/

/-- Child `c` was started, and the manager has gone on from it: it was stopped or replaced since,
or it is not the current one and no restart of it is due. -/
def Replaced (c : Nat) (w : World) : Prop :=
  ∃ ch, w.children[c]? = some ch ∧
    (ch.gen < w.proc.gen ∨ w.proc.cmd ≠ some c ∧ ch.delays = false)

/-- A move of another waiter, on a replaced child. -/
theorem replaced_of_set {c d : Nat} {ch new : Child} (hr : Replaced c w)
    (hch : w.children[d]? = some ch) (hne : d ≠ c) (hgen : w.proc.gen ≤ w'.proc.gen)
    (hcmd : w'.proc.cmd = w.proc.cmd ∨ w'.proc.cmd ≠ some c)
    {rest : List Child} (hchildren : w'.children = w.children.set d new ++ rest) :
    Replaced c w' := by
  obtain ⟨x, hx, hcase⟩ := hr
  refine ⟨x, ?_, ?_⟩
  · have hlt := (List.getElem?_eq_some_iff.mp hx).1
    rw [hchildren, List.getElem?_append_left (by rwa [List.length_set]),
      getElem?_set_of_some hch, if_neg hne]
    exact hx
  · rcases hcase with hlt | ⟨hcur, hdelays⟩
    · exact .inl (Nat.lt_of_lt_of_le hlt hgen)
    · refine .inr ⟨?_, hdelays⟩
      rcases hcmd with hcmd | hcmd
      · rwa [hcmd]
      · exact hcmd

/-- A waiter that finds its child current, or its restart due, is not that of a replaced child. -/
theorem Replaced.ne {c d : Nat} {ch : Child} (hr : Replaced c w) (hch : w.children[d]? = some ch)
    (hgen : w.proc.gen = ch.gen) (h : w.proc.cmd = some d ∨ ch.delays = true) : d ≠ c := by
  rintro rfl
  obtain ⟨x, hx, hcase⟩ := hr
  obtain rfl := Option.some.inj (hx.symm.trans hch)
  rcases hcase with hlt | ⟨hcur, hdelays⟩
  · omega
  · rcases h with h | h
    · exact hcur h
    · rw [hdelays] at h
      cases h

/-- The same child, with another waiter. -/
theorem replaced_of_own {c : Nat} {ch : Child} {waiter : Waiter} (hr : Replaced c w)
    (hch : w.children[c]? = some ch)
    (hdelays : ({ ch with waiter := waiter } : Child).delays = false) (hproc : w'.proc = w.proc)
    (hchildren : w'.children = w.children.set c { ch with waiter := waiter }) :
    Replaced c w' := by
  obtain ⟨x, hx, hcase⟩ := hr
  obtain rfl := Option.some.inj (hx.symm.trans hch)
  refine ⟨_, by rw [hchildren, getElem?_set_of_some hch, if_pos rfl], ?_⟩
  rw [hproc]
  exact hcase.imp_right fun h => ⟨h.1, hdelays⟩

/-- **A replaced child stays replaced**, and its waiter does nothing to the manager. -/
theorem Replaced.step {c : Nat} (hI : Supervised cfg w) (hr : Replaced c w)
    (hs : Stepped cfg w w' m) :
    Replaced c w' ∧
      (m.OfExit c → w'.proc = w.proc ∧ w'.children.length = w.children.length) := by
  cases hs with
  | quiet hproc hchildren =>
      refine ⟨?_, fun _ => ⟨hproc, by rw [hchildren]⟩⟩
      unfold Replaced
      rw [hproc, hchildren]
      exact hr
  | stopping next hfree hcall hw =>
      subst hw
      refine ⟨?_, fun hm => ?_⟩
      · obtain ⟨ch, hch, -⟩ := hr
        refine ⟨_, by rw [stopLocked_getElem?, hch]; rfl, .inl ?_⟩
        have hle := hI.gen_le ch.gen (List.mem_map_of_mem (List.mem_of_getElem? hch))
        -- the generation grows, and a child's does not
        split <;> exact Nat.lt_succ_of_le hle
      · rcases hcall with ⟨rfl, -⟩ | ⟨hcall, -⟩
        · rcases hm with ⟨_, _, h⟩ | ⟨_, h⟩ | ⟨_, h⟩ <;> cases h
        · rcases hm with ⟨_, _, rfl⟩ | ⟨_, rfl⟩ | ⟨_, rfl⟩ <;> cases hcall
  | stopped sec hheld hnext hproc hchildren =>
      refine ⟨?_, fun _ => ⟨hproc, by rw [hchildren]⟩⟩
      unfold Replaced
      rw [hproc, hchildren]
      exact hr
  | refused sec hheld hnext hproc hchildren =>
      refine ⟨?_, fun hm => by rcases hm with ⟨_, _, h⟩ | ⟨_, h⟩ | ⟨_, h⟩ <;> cases h⟩
      unfold Replaced
      rw [hproc, hchildren]
      exact hr
  | restarted sec name args now hheld hnext hproc hchildren =>
      refine ⟨?_, fun hm => by rcases hm with ⟨_, _, h⟩ | ⟨_, h⟩ | ⟨_, h⟩ <;> cases h⟩
      obtain ⟨ch, hch, -⟩ := hr
      have hlt := (List.getElem?_eq_some_iff.mp hch).1
      refine ⟨ch, by rw [hchildren, List.getElem?_append_left hlt, hch], .inl ?_⟩
      rw [hproc]
      exact Nat.lt_succ_of_le (hI.gen_le ch.gen (List.mem_map_of_mem (List.mem_of_getElem? hch)))
  -- its own exit is written to its own entry, and nothing else
  | exited d ch err uptime hch hwaiter hproc hchildren =>
      refine ⟨?_, fun _ => ⟨hproc, by rw [hchildren, List.length_set]⟩⟩
      by_cases hd : d = c
      · subst hd
        exact replaced_of_own hr hch rfl hproc hchildren
      · exact replaced_of_set hr hch hd (Nat.le_of_eq (by rw [hproc])) (.inl (by rw [hproc]))
          (hchildren.trans (List.append_nil _).symm)
  | ignored d ch hfree hch hwaiter hproc hchildren =>
      refine ⟨?_, fun _ => ⟨hproc, by rw [hchildren, List.length_set]⟩⟩
      by_cases hd : d = c
      · subst hd
        exact replaced_of_own hr hch rfl hproc hchildren
      · exact replaced_of_set hr hch hd (Nat.le_of_eq (by rw [hproc])) (.inl (by rw [hproc]))
          (hchildren.trans (List.append_nil _).symm)
  | granted d now ch waiter hfree hch hdelays hgen hcmd hlt hproc hwaiter hchildren =>
      have hne := hr.ne hch hgen (.inl hcmd)
      refine ⟨replaced_of_set hr hch hne (Nat.le_of_eq hproc.2.1.symm)
        (.inr (by rw [hproc.1]; exact (Option.some_ne_none c).symm))
        (hchildren.trans (List.append_nil _).symm), fun hm => ?_⟩
      rcases hm with ⟨_, _, h⟩ | ⟨_, h⟩ | ⟨_, h⟩ <;> cases h
      -- a step of its own waiter would need it to be current
      exact (hne rfl).elim
  | gaveUp d now ch hfree hch hdelays hgen hcmd hproc hchildren =>
      have hne := hr.ne hch hgen (.inl hcmd)
      refine ⟨replaced_of_set hr hch hne (Nat.le_of_eq hproc.2.1.symm)
        (.inr (by rw [hproc.1]; exact (Option.some_ne_none c).symm))
        (hchildren.trans (List.append_nil _).symm), fun hm => ?_⟩
      rcases hm with ⟨_, _, h⟩ | ⟨_, h⟩ | ⟨_, h⟩ <;> cases h
      exact (hne rfl).elim
  | unlaunched d start ch hfree hch hdelays hgen hcmd hproc hchildren =>
      have hne := hr.ne hch hgen (.inr hdelays)
      refine ⟨replaced_of_set hr hch hne (Nat.le_of_eq hproc.2.1.symm)
        (.inr (by rw [hproc.1]; exact (Option.some_ne_none c).symm))
        (hchildren.trans (List.append_nil _).symm), fun hm => ?_⟩
      rcases hm with ⟨_, _, h⟩ | ⟨_, h⟩ | ⟨_, h⟩ <;> cases h
      exact (hne rfl).elim
  | relaunched d start ch name args now hfree hch hdelays hgen hcmd hproc hchildren =>
      have hne := hr.ne hch hgen (.inr hdelays)
      -- the new child stands behind it in the table
      have hnew : w'.proc.cmd ≠ some c := by
        obtain ⟨x, hx, -⟩ := hr
        have hlt := (List.getElem?_eq_some_iff.mp hx).1
        rw [hproc]
        exact fun h => Nat.ne_of_gt hlt (Option.some.inj h)
      refine ⟨replaced_of_set hr hch hne (by rw [hproc]; exact Nat.le_succ _) (.inr hnew)
        hchildren, fun hm => ?_⟩
      rcases hm with ⟨_, _, h⟩ | ⟨_, h⟩ | ⟨_, h⟩ <;> cases h
      exact (hne rfl).elim

end Step

/-! ### Runs of the manager

What one step preserves holds in a whole run, by `history_invariant` and `final_invariant`; what
holds from some point on, by `history_since`; and the automatic restarts are counted by
`history_count`, against what is spent. -/

/-- Every step of a run is between supervised states. -/
theorem supervised_run {cfg : ProcConfig} {moves : List Move} :
    ∀ ev ∈ history (procStep cfg) World.init moves,
      Supervised cfg ev.before ∧ Supervised cfg ev.after :=
  history_invariant (C := fun _ => True) (fun m w _ hI => hI.step (stepped cfg m w))
    (fun _ _ => trivial) (supervised_init cfg)

/-- And so is the state it ends in. -/
theorem supervised_final (cfg : ProcConfig) (moves : List Move) :
    Supervised cfg (final (procStep cfg) World.init moves) :=
  final_invariant (C := fun _ => True) (fun m w _ hI => hI.step (stepped cfg m w))
    (fun _ _ => trivial) (supervised_init cfg)

/-- The recorded step of an event. -/
theorem stepped_of_mem {cfg : ProcConfig} {w : World} {moves : List Move}
    {ev : Event Move World (Option Returned)} (h : ev ∈ history (procStep cfg) w moves) :
    Stepped cfg ev.before ev.after ev.input := by
  have hexec := (history_event h).2
  have hstep := stepped cfg ev.input ev.before
  rwa [hexec] at hstep

/-- A `stop` that returns leaves the manager idle. -/
theorem idle_of_stop {cfg : ProcConfig} {m : Move} {w w' : World} (hI : Supervised cfg w)
    (h : procStep cfg m w = (some .stop, w')) : Idle w' := by
  cases m with
  | resume timedOut start =>
      dsimp only [procStep] at h
      split at h
      · cases h
      · next sec hheld =>
          split at h
          · split at h
            · obtain ⟨-, rfl⟩ := Prod.mk.inj h
              exact idle_of_free rfl (hI.held (by rw [hheld]; exact Option.some_ne_none sec))
            · unfold restartLocked at h
              split at h <;> cases h
          · cases h
  -- no other move lets a call of `stop` return
  | restart name args => dsimp only [procStep] at h; split at h <;> cases h
  | stop => dsimp only [procStep] at h; split at h <;> cases h
  | grace i => dsimp only [procStep] at h; split at h <;> cases h
  | exit c err uptime =>
      dsimp only [procStep] at h
      split at h
      · split at h <;> cases h
      · cases h
  | watch c now =>
      dsimp only [procStep] at h
      split at h
      · split at h <;> cases h
      · cases h
  | relaunch c start =>
      dsimp only [procStep] at h
      split at h
      · split at h <;> cases h
      · cases h

/-- **After a stop** nothing is started until the next call of `restart`. -/
theorem none_started_after_stop {cfg : ProcConfig} {moves : List Move}
    {pre post : List (Event Move World (Option Returned))} {ev : Event Move World (Option Returned)}
    (hs : history (procStep cfg) World.init moves = pre ++ ev :: post)
    (hstop : ev.output = some .stop) (hpost : ∀ b ∈ post, b.input.isRestart = false) :
    ∀ b ∈ post, b.after.children.length = b.before.children.length := by
  have hmem : ev ∈ history (procStep cfg) World.init moves :=
    hs ▸ List.mem_append_right _ List.mem_cons_self
  -- the stop itself leaves the manager idle, and every later step keeps it so
  have hidle : Idle ev.after := by
    refine idle_of_stop (m := ev.input) (supervised_run ev hmem).1 ?_
    rw [(history_event hmem).2, hstop]
  have hall := history_since (I := Idle) (C := fun b => b.input.isRestart = false) hs hidle
    (fun m w hm hI => (hI.step (stepped cfg m w) hm).1) hpost
  intro b hb
  exact ((hall b hb).step (stepped_of_mem (hs ▸ List.mem_append_right _
    (List.mem_cons_of_mem _ hb))) (hpost b hb)).2

/-- **The exit of a replaced child** does nothing to the manager. -/
theorem replaced_is_ignored {cfg : ProcConfig} {moves : List Move}
    {pre post : List (Event Move World (Option Returned))} {ev : Event Move World (Option Returned)}
    {c : Nat} (hs : history (procStep cfg) World.init moves = pre ++ ev :: post)
    (hr : Replaced c ev.after) :
    ∀ b ∈ post, b.input.OfExit c →
      b.after.proc = b.before.proc ∧ b.after.children.length = b.before.children.length := by
  have hmem : ∀ b ∈ ev :: post, b ∈ history (procStep cfg) World.init moves := fun b hb =>
    hs ▸ List.mem_append_right _ hb
  have hall := history_since (I := fun w => Supervised cfg w ∧ Replaced c w) (C := fun _ => True)
    hs ⟨(supervised_run ev (hmem ev List.mem_cons_self)).2, hr⟩
    (fun m w _ hI => ⟨hI.1.step (stepped cfg m w), (hI.2.step hI.1 (stepped cfg m w)).1⟩)
    (fun _ _ => trivial)
  intro b hb hexit
  obtain ⟨hI, hr⟩ := hall b hb
  exact (hr.step hI (stepped_of_mem (hmem b (List.mem_cons_of_mem _ hb)))).2 hexit

/-- **The budget of automatic restarts.** Over a stretch without a call of `restart` every automatic
restart spends one more, what is spent was counted, and the count has its limit. -/
theorem automatic_le {cfg : ProcConfig} {moves : List Move}
    {pre mid post : List (Event Move World (Option Returned))}
    (hs : history (procStep cfg) World.init moves = pre ++ (mid ++ post))
    (hmid : ∀ b ∈ mid, b.input.isRestart = false) :
    mid.countP (fun b => automatic b.input b.before b.after) ≤ cfg.restartLimit := by
  obtain ⟨xs, rest, -, -, hrest⟩ := history_split hs
  obtain ⟨ys, -, -, rfl, -⟩ := history_split hrest.symm
  -- the moves of the stretch, from the events that record them
  have hinputs : ∀ m ∈ ys, m.isRestart = false := by
    intro m hm
    rw [← history_map_input (procStep cfg) (final (procStep cfg) World.init xs) ys] at hm
    obtain ⟨b, hb, rfl⟩ := List.mem_map.mp hm
    exact hmid b hb
  have hcount := history_count (I := Supervised cfg) (φ := World.spent)
    (P := fun b => automatic b.input b.before b.after)
    (fun m w hI => hI.step (stepped cfg m w))
    (fun m w hm hI => (budget_step hI (stepped cfg m w)).2.2 hm) hinputs (supervised_final cfg xs)
  have hend := supervised_final cfg (xs ++ ys)
  rw [final_append] at hend
  calc (history (procStep cfg) (final (procStep cfg) World.init xs) ys).countP
        (fun b => automatic b.input b.before b.after)
      ≤ (final (procStep cfg) (final (procStep cfg) World.init xs) ys).spent :=
        Nat.le_trans (Nat.le_add_left _ _) hcount
    _ ≤ _ := Nat.le_trans (spent_le _) (Nat.sub_le _ _)
    _ ≤ cfg.restartLimit := hend.restarts_le

/-- **Child process supervision.** In every interleaving:
a started child that has neither exited nor been signalled to stop is the current one;
after a completed `stop`, nothing is started before the next call of `restart`;
the exit of a child the manager has gone on from changes nothing of the manager and starts
nothing; and over any stretch without a call of `restart` the automatic restarts stay within
the limit. -/
theorem process_supervision (cfg : ProcConfig) (moves : List Move) :
    let es := history (procStep cfg) World.init moves
    (∀ ev ∈ es, ev.before.OnlyCurrent ∧ ev.after.OnlyCurrent) ∧
      (∀ pre ev post, es = pre ++ ev :: post → ev.output = some .stop →
        (∀ b ∈ post, b.input.isRestart = false) →
        ∀ b ∈ post, b.after.children.length = b.before.children.length) ∧
      (∀ pre ev post c, es = pre ++ ev :: post → Replaced c ev.after →
        ∀ b ∈ post, b.input.OfExit c →
          b.after.proc = b.before.proc ∧ b.after.children.length = b.before.children.length) ∧
      ∀ pre mid post, es = pre ++ (mid ++ post) → (∀ b ∈ mid, b.input.isRestart = false) →
        mid.countP (fun b => automatic b.input b.before b.after) ≤ cfg.restartLimit := by
  intro es
  refine ⟨fun ev hev => ?_, fun pre ev post hs => none_started_after_stop hs,
    fun pre ev post c hs => replaced_is_ignored hs, fun pre mid post hs => automatic_le hs⟩
  obtain ⟨hbefore, hafter⟩ := supervised_run ev hev
  exact ⟨hbefore.onlyCurrent, hafter.onlyCurrent⟩

-- A child that ran long enough is started again by its waiter.
example : (final (procStep ⟨0, 0⟩) World.init
    [.restart "suricata" [], .resume false (.ok 0), .exit 0 none 600000000, .watch 0 600000000,
      .relaunch 0 (.ok 2600000000)]).proc.cmd = some 1 := by decide

end Phragma.Engines
