import MachineEmu.Lib.Decimal
import Mathlib.Logic.Function.Basic

/-!
# The workspace lock

The lock file of a workspace, and the processes that open the workspace and drop it. Each step of a
process is one operation on the file system.

* `ownerText`, `parseOwner` — the contents of the lock file.
* `Phase` — where a process is in `Workspace::open`.
* `World.step` — the steps of the processes, which also fail and crash.
-/

namespace MachineEmu

open Lib

namespace WorkspaceLock

/-- A process, by its pid and its start time; no two processes have both in common. -/
structure Process where
  pid : UInt32
  start : UInt64
  deriving DecidableEq

/-! ## The owner -/

/-- What `Workspace::open` writes. -/
def ownerText (process : Process) : String :=
  toString process.pid.toNat ++ " " ++ toString process.start.toNat ++ "\n"

/-- `split_whitespace`. -/
def fields (text : List Char) : List (List Char) :=
  (text.splitOnP Char.isWhitespace).filter (· ≠ [])

/-- The process that a lock file names. -/
def parseOwner (contents : String) : Option Process :=
  match fields contents.toList with
  | pid :: start :: _ => do
    let pid ← parseUnsigned (2 ^ 32) pid
    let start ← parseUnsigned (2 ^ 64) start
    some ⟨UInt32.ofNat pid, UInt64.ofNat start⟩
  | _ => none

theorem not_isWhitespace_of_isDigit {c : Char} (h : c.isDigit = true) :
    c.isWhitespace = false := by
  rw [Bool.eq_false_iff]
  intro hspace
  simp only [Char.isWhitespace, Bool.or_eq_true, decide_eq_true_eq] at hspace
  rcases hspace with ((rfl | rfl) | rfl) | rfl <;> revert h <;> decide

theorem fields_ownerText (process : Process) :
    fields (ownerText process).toList =
      [(toString process.pid.toNat).toList, (toString process.start.toNat).toList] := by
  have hpid : ∀ c ∈ (toString process.pid.toNat).toList, c.isWhitespace = false :=
    fun c hc => not_isWhitespace_of_isDigit (isDigit_of_mem_toString hc)
  have hstart : ∀ c ∈ (toString process.start.toNat).toList, c.isWhitespace = false :=
    fun c hc => not_isWhitespace_of_isDigit (isDigit_of_mem_toString hc)
  have htext : (ownerText process).toList = (toString process.pid.toNat).toList ++
      ' ' :: ((toString process.start.toNat).toList ++ '\n' :: []) := by
    unfold ownerText
    rw [String.toList_append, String.toList_append, String.toList_append]
    simp
  unfold fields
  rw [htext, List.splitOnP_append_cons_of_forall_mem hpid ' ' (by decide),
    List.splitOnP_append_cons_of_forall_mem hstart '\n' (by decide)]
  rw [List.filter_cons_of_pos (by simp), List.filter_cons_of_pos (by simp)]
  rfl

/-- The owner that was written is read. -/
theorem parseOwner_ownerText (process : Process) :
    parseOwner (ownerText process) = some process := by
  unfold parseOwner
  rw [fields_ownerText]
  dsimp only
  rw [parseUnsigned_toString process.pid.toNat_lt, parseUnsigned_toString process.start.toNat_lt]
  simp

theorem parseOwner_empty : parseOwner "" = none := by decide

/-! ## Processes and the lock file -/

/-- A lock file: its number, which a new file at the same path does not have, the process that
created it and its contents. -/
structure LockFile where
  number : Nat
  creator : Process
  contents : String
  deriving DecidableEq

/-- Where a process is in `Workspace::open` and after it. Source: `storage/lock.rs`
`acquire_workspace_lock` and `storage/mod.rs` `Workspace::open`.

* `closed` — it has no workspace open; the next step is to create the lock file.
* `found` — there is a lock file already; the next step is to read it.
* `owned` — it read the owner of a file; the next step is to look for that process.
* `stale` — the owner is not running; the next step is to remove the lock file.
* `removed` — it removed the lock file; the next step is to create it.
* `created` — it created the lock file; the next step is to write the owner.
* `written` — the owner is written; the next step is to sync the file and open the database.
* `holding` — it has the workspace open. -/
inductive Phase where
  | closed
  | found
  | owned (file : Nat) (owner : Process)
  | stale (file : Nat)
  | removed
  | created (file : Nat)
  | written (file : Nat)
  | holding (file : Nat)
  deriving DecidableEq

/-- The lock file at the path, the number of the next file, the processes that are running and
where each is. A process that does nothing yet counts as running. -/
structure World where
  file : Option LockFile
  nextFile : Nat
  alive : Process → Bool
  phase : Process → Phase

def World.initial : World where
  file := none
  nextFile := 0
  alive := fun _ => true
  phase := fun _ => .closed

/-- `fails` is an I/O error of the next step, which ends `Workspace::open`. -/
inductive Op where
  | create (process : Process)
  | read (process : Process)
  | probe (process : Process)
  | remove (process : Process)
  | write (process : Process)
  | sync (process : Process)
  | fails (process : Process)
  | drop (process : Process)
  | crash (process : Process)

/-- The process that takes a step. -/
def Op.process : Op → Process
  | .create process | .read process | .probe process | .remove process | .write process
  | .sync process | .fails process | .drop process | .crash process => process

namespace World

/-- The world after a process went on. -/
def enter (w : World) (process : Process) (phase : Phase) : World :=
  { w with phase := Function.update w.phase process phase }

@[simp] theorem enter_phase (w : World) (process : Process) (phase : Phase) :
    (w.enter process phase).phase process = phase :=
  Function.update_self _ _ _

@[simp] theorem enter_file (w : World) (process : Process) (phase : Phase) :
    (w.enter process phase).file = w.file := rfl

/-- `create_new`: the process has created the lock file, or there is one and it goes on to
`present`. -/
def createNew (w : World) (process : Process) (present : Phase) : World :=
  match w.file with
  | none =>
    { w.enter process (.created w.nextFile) with
      file := some ⟨w.nextFile, process, ""⟩
      nextFile := w.nextFile + 1 }
  | some _ => w.enter process present

/-- Read the owner of the lock file: a file without one, or no file, is not stale. -/
def readOwner (w : World) (process : Process) : World :=
  match w.file with
  | none => w.enter process .closed
  | some file =>
    match parseOwner file.contents with
    | none => w.enter process .closed
    | some owner => w.enter process (.owned file.number owner)

/-- `remove_file` on the lock file. -/
def removeFile (w : World) (process : Process) : World :=
  match w.file with
  | none => w.enter process .closed
  | some _ => { w.enter process .removed with file := none }

/-- Write the owner to the file that the process created, which may no longer be at the path. -/
def writeOwner (w : World) (process : Process) (number : Nat) : World :=
  { w.enter process (.written number) with
    file := w.file.map fun file =>
      if file.number = number then { file with contents := ownerText process } else file }

/-- A step of a process that is running. -/
def stepAlive (w : World) : Op → Option World
  | .create process =>
    match w.phase process with
    | .closed => some (w.createNew process .found)
    | .removed => some (w.createNew process .closed)
    | _ => none
  | .read process =>
    match w.phase process with
    | .found => some (w.readOwner process)
    | _ => none
  | .probe process =>
    match w.phase process with
    | .owned file owner =>
      some (w.enter process (if w.alive owner then .closed else .stale file))
    | _ => none
  | .remove process =>
    match w.phase process with
    | .stale _ => some (w.removeFile process)
    | _ => none
  | .write process =>
    match w.phase process with
    | .created number => some (w.writeOwner process number)
    | _ => none
  | .sync process =>
    match w.phase process with
    | .written number => some (w.enter process (.holding number))
    | _ => none
  | .fails process =>
    match w.phase process with
    | .found | .stale _ | .removed | .created _ | .written _ => some (w.enter process .closed)
    | _ => none
  | .drop process =>
    match w.phase process with
    | .holding _ => some { w.enter process .closed with file := none }
    | _ => none
  | .crash process => some { w with alive := Function.update w.alive process false }

/-- A step of the system: only a process that is running takes one. -/
def step (w : World) (op : Op) : Option World :=
  if w.alive op.process then w.stepAlive op else none

theorem step_of_alive {w : World} {op : Op} (h : w.alive op.process = true) :
    w.step op = w.stepAlive op :=
  if_pos h

/-- Some steps, one after the other. -/
def steps (w : World) : List Op → Option World
  | [] => some w
  | op :: ops => (w.step op).bind fun w => w.steps ops

theorem steps_cons {w w' : World} {op : Op} {ops : List Op} (h : w.step op = some w') :
    w.steps (op :: ops) = w'.steps ops := by
  rw [steps, h, Option.bind_some]

/-- The process has the workspace open. -/
def Holds (w : World) (process : Process) : Prop :=
  w.alive process = true ∧ ∃ file, w.phase process = .holding file


end World

/-- The worlds that the allowed steps reach. -/
inductive Reachable (allowed : World → Op → Prop) : World → Prop
  | initial : Reachable allowed World.initial
  | step {w w' : World} {op : Op} :
      Reachable allowed w → allowed w op → w.step op = some w' → Reachable allowed w'

end WorkspaceLock

end MachineEmu
