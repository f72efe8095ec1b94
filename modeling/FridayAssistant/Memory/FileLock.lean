import FridayAssistant.Basic
import FridayAssistant.Lib.Transition
/-!
# `FileLock` (infrastructure/memory/file_lock.py)

`n` processes call `acquire` and `release` on one path. A step is one file operation of one process
(`mkdir`, the read or the write of `owner.json`, the rename, the recursive delete), a reading of the
clock, a call, or a crash; between them any time passes. A `rename` moves the directory to a name of
its own, and what is deleted there concerns nobody.

Assumed of every run (`Assumed`): the processes read one clock, no live process holds
the lock for longer than the time to live, and `uuid4` never draws a token twice.

A lock that is older than its time to live is taken over: its `owner.json` is read, judged, and then
the directory is renamed whoever made it. Two contenders that have both judged a crashed holder's
lock rename two different directories, the second one that of a live holder; then both hold the
lock (`stale_lock_taken_twice`). Also, the age of a lock is counted from `created_at`, which is
stamped before `owner.json` is written: a slow write makes a lock that is stale at once, however
short its holder has held it. When the directory that is renamed or deleted is the one that was
inspected, and no live holder's `created_at` is older than the time to live, the lock excludes
(`file_lock_excludes`).
-/
namespace Friday.Memory
open Transition

/-- What `owner.json` says; nothing reads its `owner`. -/
structure OwnerFile where
  token : Nat
  createdAt : Time
  deriving DecidableEq

/-- Where a process is; `left` is the number of rounds `acquire` has left. -/
inductive Pc where
  | idle
  | mkdir (left : Nat)
  /-- `_is_stale` reads `owner.json`. -/
  | read (left : Nat)
  /-- `_is_stale` asks for the time. -/
  | judge (left : Nat) (seen : OwnerFile)
  /-- `_remove_stale`. -/
  | rename (left : Nat) (seen : OwnerFile)
  /-- `_write_owner` draws the token and asks for the time. -/
  | stamp
  | write (file : OwnerFile)
  | releaseRead
  | delete
  deriving DecidableEq

/-- `file` is what the process last wrote, or was about to write, with its `_token`; `holding` from
the return of `acquire`, which was at `heldSince`, until `release` is called. -/
structure Proc where
  alive : Bool
  holding : Bool
  heldSince : Time
  file : Option OwnerFile
  pc : Pc
  deriving DecidableEq

/-- `path` is the lock directory, with its `owner.json` once that is written. -/
structure LockState (n : Nat) where
  clock : Time
  path : Option (Option OwnerFile)
  procs : Fin n → Proc
  issued : List Nat

def LockState.initial (n : Nat) : LockState n :=
  ⟨0, none, fun _ => ⟨true, false, 0, none, .idle⟩, []⟩

inductive LockOp where
  | acquire
  | release
  /-- The next operation of the call; a token is used when one is drawn. -/
  | go (token : Nat)
  | crash

inductive LockAction (n : Nat) where
  | tick (d : Nat)
  | step (p : Fin n) (op : LockOp)

variable {n : Nat} (ttl : Time)

def LockState.set (s : LockState n) (p : Fin n) (proc : Proc) : LockState n :=
  { s with procs := fun q => if q = p then proc else s.procs q }

/-- The next operation of a process. -/
def go (s : LockState n) (p : Fin n) (token : Nat) : Option (LockState n) :=
  let proc := s.procs p
  match proc.pc with
  | .idle => none
  | .mkdir 0 => some (s.set p { proc with pc := .idle })
  | .mkdir (left + 1) =>
    match s.path with
    | none => some ({ s with path := some none }.set p { proc with pc := .stamp })
    | some _ => some (s.set p { proc with pc := .read left })
  | .read left =>
    match s.path with
    | some (some file) => some (s.set p { proc with pc := .judge left file })
    | _ => some (s.set p { proc with pc := .idle })
  | .judge left seen =>
    some (s.set p { proc with pc := if ttl < s.clock - seen.createdAt then .rename left seen else .idle })
  | .rename left _ =>
    match s.path with
    | none => some (s.set p { proc with pc := .idle })
    | some _ => some ({ s with path := none }.set p { proc with pc := .mkdir left })
  | .stamp =>
    let file : OwnerFile := ⟨token, s.clock⟩
    some ({ s with issued := token :: s.issued }.set p { proc with file := some file, pc := .write file })
  | .write file =>
    match s.path with
    -- the directory is gone: `write_text` raises
    | none => some (s.set p { proc with pc := .idle })
    | some _ => some ({ s with path := some (some file) }.set p
        { proc with holding := true, heldSince := s.clock, pc := .idle })
  | .releaseRead =>
    if s.path.join.any (fun file => proc.file.any (·.token = file.token)) then
      some (s.set p { proc with pc := .delete })
    else some (s.set p { proc with pc := .idle })
  | .delete => some ({ s with path := none }.set p { proc with pc := .idle })

def lockStep (s : LockState n) : LockAction n → Option (LockState n)
  | .tick d => some { s with clock := s.clock + d }
  | .step p op =>
    let proc := s.procs p
    if proc.alive then
      match op with
      | .acquire => if proc.pc = .idle then some (s.set p { proc with pc := .mkdir 2 }) else none
      | .release => if proc.pc = .idle then some (s.set p { proc with holding := false, pc := .releaseRead }) else none
      | .go token => go ttl s p token
      | .crash => some (s.set p { proc with alive := false })
    else none

/-! ## The assumptions -/

/-- A live process that has acquired the lock and not called `release`. -/
def LockState.Holds (s : LockState n) (p : Fin n) : Prop := (s.procs p).alive = true ∧
    (s.procs p).holding = true
  deriving Decidable

/-- No live process has held the lock for longer than the time to live. -/
def Timely (s : LockState n) : Prop := ∀ p, s.Holds p → s.clock - (s.procs p).heldSince ≤ ttl
  deriving Decidable

def isFreshToken (s : LockState n) : LockAction n → Bool
  | .step _ (.go token) => !s.issued.contains token
  | _ => true

/-- The token is new, and after the step no live holder has kept the lock too long. -/
def Assumed (s : LockState n) (a : LockAction n) : Prop :=
  isFreshToken s a = true ∧ ((lockStep ttl s a).all fun s' => Timely ttl s') = true
  deriving Decidable

def lockSystem (n : Nat) : System (LockState n) (LockAction n) :=
  .ofStep (fun s => s = .initial n) (lockStep ttl) (Assumed ttl)

/-- The directory that is renamed or deleted is the one whose `owner.json` was read. -/
def removesInspected (s : LockState n) : LockAction n → Bool
  | .step p (.go _) =>
    match (s.procs p).pc with
    | .rename _ seen => s.path.all (· = some seen)
    | .delete => s.path.all fun file => file.any fun file => (s.procs p).file.any (·.token = file.token)
    | _ => true
  | _ => true

/-- No live holder's `created_at` is older than the time to live. That `owner.json` is written
within the time to live would not do: the hold that follows counts as well. -/
def Young (s : LockState n) : Prop :=
  ∀ p, s.Holds p → ((s.procs p).file.all fun file => s.clock - file.createdAt ≤ ttl) = true
  deriving Decidable

def Orderly (s : LockState n) (a : LockAction n) : Prop :=
  removesInspected s a = true ∧ ((lockStep ttl s a).all fun s' => Young ttl s') = true
  deriving Decidable

end Friday.Memory
