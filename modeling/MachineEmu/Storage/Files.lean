import MachineEmu.Lib.FileTree
import MachineEmu.Lib.Prog
import MachineEmu.Storage.Workspace

/-!
# The files of the workspace

The state that the storage procedures work on: the database and the files of the host. A
procedure makes one call of the operating system after the other; each may fail, and a write that
fails may leave a part of its bytes behind.

* `Store`, `Handle` — the state, and the workspace that a procedure is called on.
* `Call` — the label of a call; `Outcome` — what the operating system answers to one.
* `change`, `statement`, `readFile`, `writeAll` — the calls.
* `copyAndHash` — the copy with its digest.
* `Calls` — which calls a task makes.
-/

namespace MachineEmu

open Lib Prog

/-- The database of a workspace and the files of the host. -/
structure Store where
  tables : Workspace
  files : FileTree

/-- The root directory of a workspace and the process that has opened it.
Source: `storage/mod.rs` `Workspace`. -/
structure Handle where
  root : Path
  pid : Nat

/-- A call of the operating system, or a statement of the database. -/
inductive Call where
  | metadata (p : Path)
  | readDir (p : Path)
  | read (p : Path)
  | write (p : Path)
  | createDir (p : Path)
  | createDirAll (p : Path)
  | rename (source target : Path)
  | hardLink (source target : Path)
  | removeFile (p : Path)
  | removeDir (p : Path)
  | removeDirAll (p : Path)
  | sync (p : Path)
  | database
  deriving DecidableEq

/-- What the operating system answers: the text of a failure, the number of bytes that a failing
write has written, and the clock. -/
structure Outcome where
  fault : Option String := none
  reached : Nat := 0
  nanos : Nat := 0
  deriving Inhabited

/-- A storage procedure. -/
abbrev Task (α : Type) := Prog Store Outcome Call Error α

/-! ## Names -/

/-- The text of a path. -/
def display (p : Path) : String := "/" ++ String.intercalate "/" p

/-- The bytes of a text. -/
def textBytes (s : String) : List UInt8 := s.toUTF8.toList

/-- The lowercase hexadecimal digest of some bytes. -/
def sha256 (bytes : List UInt8) : String := Sha256.hex (Sha256.digest (bytes.map UInt8.toNat))

/-- The name of a temporary file, from the process and the clock. -/
def Handle.temporary (self : Handle) (kind : String) (nanos : Nat) : String :=
  "." ++ kind ++ "-" ++ toString self.pid ++ "-" ++ toString nanos ++ ".tmp"

/-! ## Calls -/

namespace Store

/-- The store with other files. -/
def withFiles (s : Store) (files : FileTree) : Store := { s with files }

@[simp] theorem withFiles_files (s : Store) (files : FileTree) :
    (s.withFiles files).files = files := rfl

@[simp] theorem withFiles_tables (s : Store) (files : FileTree) :
    (s.withFiles files).tables = s.tables := rfl

@[simp] theorem withFiles_self (s : Store) : s.withFiles s.files = s := rfl

/-- `Path::exists`. -/
def exists_ (p : Path) : Task Bool :=
  .act (.metadata p) id fun s => .ret (decide (s.files.look p ≠ none))

/-- Whether an entry is a file. -/
def isFileEntry : Option FileTree.Entry → Bool
  | some (.file _) => true
  | _ => false

theorem isFileEntry_iff {entry : Option FileTree.Entry} :
    isFileEntry entry = true ↔ ∃ bytes, entry = some (.file bytes) := by
  unfold isFileEntry
  split
  · simp
  · next hnot => simpa using hnot

/-- `Path::is_file`. -/
def isFile (p : Path) : Task Bool :=
  .act (.metadata p) id fun s => .ret (isFileEntry (s.files.look p))

/-- `fs::metadata`, or nothing when nothing is there. -/
def metadata (p : Path) : Task (Option FileTree.Entry) :=
  .ask fun o =>
    match o.fault with
    | some detail => .throw (.io (display p) detail)
    | none => .act (.metadata p) id fun s => .ret (s.files.look p)

/-- `fs::read_dir`, all of its entries. -/
def readDir (p : Path) : Task (List String) :=
  .ask fun o =>
    match o.fault with
    | some detail => .throw (.io (display p) detail)
    | none => .act (.readDir p) id fun s =>
      if s.files.look p = some .dir then .ret (s.files.names p)
      else .throw (.io (display p) "not a directory")

/-- `fs::read`. -/
def readFile (p : Path) : Task (List UInt8) :=
  .ask fun o =>
    match o.fault with
    | some detail => .throw (.io (display p) detail)
    | none => .act (.read p) id fun s =>
      match s.files.look p with
      | some (.file bytes) => .ret bytes
      | _ => .throw (.io (display p) "not a file")

/-- The change of the files that a call makes, unless it is refused. -/
def perform (call : Call) (p : Path) (f : FileTree → Option FileTree) : Task Unit :=
  .act call (fun s => s.withFiles ((f s.files).getD s.files)) fun s =>
    if (f s.files).isSome then .ret () else .throw (.io (display p) "refused")

/-- A call that changes the files, fails or is refused. -/
def change (call : Call) (p : Path) (f : FileTree → Option FileTree) : Task Unit :=
  .ask fun o =>
    match o.fault with
    | some detail => .throw (.io (display p) detail)
    | none => perform call p f

/-- `sync_all` of a file or a directory. -/
def sync (p : Path) : Task Unit := change (.sync p) p some

/-- `fs::create_dir_all`. -/
def createDirAll (p : Path) : Task Unit := change (.createDirAll p) p (·.createDirAll p)

/-- `fs::rename`; a failure is reported at `at_`. -/
def rename (source target at_ : Path) : Task Unit :=
  change (.rename source target) at_ (·.rename source target)

/-- `fs::remove_file`. -/
def removeFile (p : Path) : Task Unit := change (.removeFile p) p (·.removeFile p)

/-- `fs::remove_dir_all`. -/
def removeDirAll (p : Path) : Task Unit := change (.removeDirAll p) p (·.removeDirAll p)

/-- `File::create`: an empty file in the place of an older one. -/
def create (p : Path) : Task Unit := change (.write p) p (·.write p [])

/-- `OpenOptions::create_new`: the file does not exist. -/
def createNew (p : Path) : Task Unit :=
  change (.write p) p fun t => if t.look p = none then t.write p [] else none

/-- `write_all` to an open file. A failure leaves a part of the bytes. -/
def writeAll (p : Path) (bytes : List UInt8) : Task Unit :=
  .ask fun o =>
    match o.fault with
    | some detail =>
      (perform (.write p) p (·.write p (bytes.take o.reached))).bind fun _ =>
        .throw (.io (display p) detail)
    | none => perform (.write p) p (·.write p bytes)

/-- `fs::write`. -/
def writeFile (p : Path) (bytes : List UInt8) : Task Unit :=
  (create p).bind fun _ => writeAll p bytes

/-- `fs::copy`; a failure is reported at the target. -/
def copy (source target : Path) : Task Unit :=
  .ask fun o =>
    match o.fault with
    | some detail => .throw (.io (display target) detail)
    | none => .act (.read source) id fun s =>
      match s.files.look source with
      | some (.file bytes) => writeFile target bytes
      | _ => .throw (.io (display target) "not a file")

/-- A statement of the database. -/
def statement {α : Type} (f : Workspace → Except Error α × Workspace) : Task α :=
  .ask fun o =>
    match o.fault with
    | some detail => .throw (.sqlite detail)
    | none => .stepE .database fun s => ((f s.tables).1, { s with tables := (f s.tables).2 })

/-- A query of the database. -/
def select {α : Type} (f : Workspace → Except Error α) : Task α := statement fun w => (f w, w)

/-- `let _ = …`. -/
def ignore (task : Task Unit) : Task Unit := task.attempt.bind fun _ => .ret ()

/-- Clean up after an error and report it: `if result.is_err() { … }`. -/
def onError {α : Type} (task : Task α) (cleanup : Task Unit) : Task α :=
  task.attempt.bind fun
    | .ok a => .ret a
    | .error e => (ignore cleanup).bind fun _ => .throw e

/-- Copy a file into an open one and return the digest of what was copied. A large file is read
and written in parts. Source: `storage/digests.rs` `copy_and_hash`. -/
def copyAndHash (source target : Path) : Task String :=
  (readFile source).bind fun bytes =>
    (writeAll target bytes).bind fun _ =>
      (sync target).bind fun _ => .ret (sha256 bytes)

/-! ## What the calls do -/

section Ends

variable {α : Type} {good : Store → Outcome → Prop} {Q : α → Store → Prop}
  {U : Unit → Store → Prop} {X : Error → Store → Prop} {s : Store} {p : Path}

theorem ends_exists {Q : Bool → Store → Prop} (h : Q (decide (s.files.look p ≠ none)) s) :
    Ends good Q X (exists_ p) s := h

theorem ends_isFile {Q : Bool → Store → Prop} (h : Q (isFileEntry (s.files.look p)) s) :
    Ends good Q X (isFile p) s := h

theorem ends_metadata {Q : Option FileTree.Entry → Store → Prop}
    (hfault : ∀ o, good s o → o.fault ≠ none → ∀ e, X e s) (h : Q (s.files.look p) s) :
    Ends good Q X (metadata p) s := by
  refine Ends.ask fun o ho => ?_
  cases hfail : o.fault with
  | some detail => exact hfault o ho (by simp [hfail]) _
  | none => exact h

theorem ends_readDir {Q : List String → Store → Prop}
    (hfault : ∀ o, good s o → o.fault ≠ none → ∀ e, X e s)
    (hrefused : s.files.look p ≠ some .dir → ∀ e, X e s)
    (h : s.files.look p = some .dir → Q (s.files.names p) s) :
    Ends good Q X (readDir p) s := by
  refine Ends.ask fun o ho => ?_
  cases hfail : o.fault with
  | some detail => exact hfault o ho (by simp [hfail]) _
  | none =>
    dsimp only
    rw [ends_act]
    split
    · next hdir => exact h hdir
    · next hdir => exact hrefused hdir _

theorem ends_readFile {Q : List UInt8 → Store → Prop}
    (hfault : ∀ o, good s o → o.fault ≠ none → ∀ e, X e s)
    (hrefused : (∀ bytes, s.files.look p ≠ some (.file bytes)) → ∀ e, X e s)
    (h : ∀ bytes, s.files.look p = some (.file bytes) → Q bytes s) :
    Ends good Q X (readFile p) s := by
  refine Ends.ask fun o ho => ?_
  cases hfail : o.fault with
  | some detail => exact hfault o ho (by simp [hfail]) _
  | none =>
    dsimp only
    rw [ends_act]
    dsimp only [id]
    split
    · next bytes hfile => exact h bytes hfile
    · next hfile => exact hrefused (fun bytes hbytes => hfile bytes hbytes) _

variable {f : FileTree → Option FileTree} {call : Call}

theorem ends_perform (hrefused : f s.files = none → ∀ e, X e s)
    (h : ∀ t, f s.files = some t → U () (s.withFiles t)) : Ends good U X (perform call p f) s := by
  unfold perform
  rw [ends_act]
  cases hf : f s.files with
  | none =>
    simp only [Option.getD_none, withFiles_self, Option.isSome_none, Bool.false_eq_true, if_false,
      ends_throw]
    exact hrefused hf _
  | some t =>
    simp only [Option.getD_some, Option.isSome_some, if_true, ends_ret]
    exact h t hf

theorem ends_change (hfault : ∀ o, good s o → o.fault ≠ none → ∀ e, X e s)
    (hrefused : f s.files = none → ∀ e, X e s)
    (h : ∀ t, f s.files = some t → U () (s.withFiles t)) : Ends good U X (change call p f) s := by
  refine Ends.ask fun o ho => ?_
  cases hfail : o.fault with
  | some detail => exact hfault o ho (by simp [hfail]) _
  | none => exact ends_perform hrefused h

/-- A call that is not refused. -/
theorem ends_change_of_some {t : FileTree}
    (hfault : ∀ o, good s o → o.fault ≠ none → ∀ e, X e s) (ht : f s.files = some t)
    (h : U () (s.withFiles t)) : Ends good U X (change call p f) s := by
  apply ends_change hfault
  · intro hnone
    rw [ht] at hnone
    cases hnone
  · intro t' ht'
    rw [ht] at ht'
    cases ht'
    exact h

theorem ends_sync (hfault : ∀ o, good s o → o.fault ≠ none → ∀ e, X e s) (h : U () s) :
    Ends good U X (sync p) s := ends_change_of_some hfault rfl h

theorem ends_writeAll {bytes : List UInt8}
    (hfault : ∀ o, good s o → o.fault ≠ none → ∀ t e,
      s.files.write p (bytes.take o.reached) = some t → X e (s.withFiles t))
    (hrefused : ∀ n, s.files.write p (bytes.take n) = none → ∀ e, X e s)
    (h : ∀ t, s.files.write p bytes = some t → U () (s.withFiles t)) :
    Ends good U X (writeAll p bytes) s := by
  refine Ends.ask fun o ho => ?_
  cases hfail : o.fault with
  | some detail =>
    refine Ends.bind (M := fun _ s' => ∃ t, s.files.write p (bytes.take o.reached) = some t ∧
      s' = s.withFiles t) ?_ ?_
    · exact ends_perform (fun hnone => hrefused _ hnone) fun t ht => ⟨t, ht, rfl⟩
    · rintro _ _ ⟨t, ht, rfl⟩
      exact hfault o ho (by simp [hfail]) t _ ht
  | none =>
    refine ends_perform (fun hnone => hrefused bytes.length ?_) h
    rw [List.take_length]
    exact hnone

theorem ends_statement {f : Workspace → Except Error α × Workspace}
    (hfault : ∀ o, good s o → o.fault ≠ none → ∀ e, X e s)
    (hrefused : ∀ e, (f s.tables).1 = .error e → X e { s with tables := (f s.tables).2 })
    (h : ∀ a, (f s.tables).1 = .ok a → Q a { s with tables := (f s.tables).2 }) :
    Ends good Q X (statement f) s := by
  refine Ends.ask fun o ho => ?_
  cases hfail : o.fault with
  | some detail => exact hfault o ho (by simp [hfail]) _
  | none => exact ends_stepE.2 ⟨h, hrefused⟩

theorem ends_select {f : Workspace → Except Error α}
    (hfault : ∀ o, good s o → o.fault ≠ none → ∀ e, X e s)
    (hrefused : ∀ e, f s.tables = .error e → X e s)
    (h : ∀ a, f s.tables = .ok a → Q a s) : Ends good Q X (select f) s :=
  ends_statement hfault hrefused h

/-- Whatever the task does, in `X` and in `U`, is ignored. -/
theorem ends_ignore {task : Task Unit} (h : Ends good U (fun _ => U ()) task s) :
    Ends good U X (ignore task) s := by
  refine Ends.bind (M := fun _ => U ()) (Ends.attempt ?_) fun _ _ h => h
  exact h

/-- The clean-up runs in the states in which the task fails. -/
theorem ends_onError {task : Task α} {cleanup : Task Unit}
    (h : Ends good Q (fun _ s' => Ends good (fun _ s'' => ∀ e, X e s'')
      (fun _ s'' => ∀ e, X e s'') cleanup s') task s) :
    Ends good Q X (onError task cleanup) s := by
  refine Ends.bind (M := fun r s' => match r with
    | .ok a => Q a s'
    | .error _ => Ends good (fun _ s'' => ∀ e, X e s'') (fun _ s'' => ∀ e, X e s'') cleanup s')
    (Ends.attempt h) ?_
  rintro (e | a) s' hs'
  · refine Ends.bind (M := fun _ s'' => ∀ e, X e s'') (ends_ignore hs') ?_
    intro _ s'' hs''
    exact hs'' e
  · exact hs'

theorem ends_copyAndHash {source target : Path} {Q : String → Store → Prop}
    (hX : ∀ e t, (∀ q, q ≠ target → t.look q = s.files.look q) → X e (s.withFiles t))
    (h : ∀ bytes t, s.files.look source = some (.file bytes) →
      s.files.write target bytes = some t → Q (sha256 bytes) (s.withFiles t)) :
    Ends good Q X (copyAndHash source target) s := by
  have hsame : ∀ e, X e s := fun e => hX e s.files fun _ _ => rfl
  have hother : ∀ {bytes t}, s.files.write target bytes = some t →
      ∀ q, q ≠ target → t.look q = s.files.look q := by
    intro bytes t ht q hq
    rw [FileTree.look_write ht, if_neg hq]
  refine Ends.bind (M := fun bytes s' => s' = s ∧ s.files.look source = some (.file bytes)) ?_ ?_
  · exact ends_readFile (fun _ _ _ => hsame) (fun _ => hsame) fun bytes hb => ⟨rfl, hb⟩
  · rintro bytes s₁ ⟨hs₁, hb⟩
    rw [hs₁]
    refine Ends.bind (M := fun _ s' => ∃ t, s.files.write target bytes = some t ∧
      s' = s.withFiles t) ?_ ?_
    · refine ends_writeAll (fun o _ _ t e ht => hX e t (hother ht)) (fun n _ => hsame) ?_
      exact fun t ht => ⟨t, ht, rfl⟩
    · rintro _ _ ⟨t, ht, rfl⟩
      refine Ends.bind (M := fun _ s' => s' = s.withFiles t) ?_ ?_
      · exact ends_change (fun _ _ _ e => hX e t (hother ht)) nofun fun t' ht' => by
          cases ht'
          rfl
      · rintro _ _ rfl
        exact h bytes t hb ht

/-- Overwriting a file twice is overwriting it once. -/
theorem look_write_write {t t' t'' : FileTree} {p : Path} {b b' : List UInt8}
    (h : t.write p b = some t') (h' : t'.write p b' = some t'') (q : Path) :
    t''.look q = if q = p then some (.file b') else t.look q := by
  rw [FileTree.look_write h', FileTree.look_write h]
  split <;> rfl

/-- A file that is written has its bytes, and the others are the same. -/
theorem ends_writeFile {X : Error → Store → Prop} (hX : ∀ e s', X e s') (p : Path)
    (bytes : List UInt8) :
    Ends good
      (fun _ s' => s'.tables = s.tables ∧ ∀ q, s'.files.look q =
        if q = p then some (.file bytes) else s.files.look q)
      X (writeFile p bytes) s := by
  refine Ends.seq (ends_change (fun _ _ _ e => hX e _) (fun _ e => hX e _) fun t₁ ht₁ => ?_)
  apply ends_writeAll
  · exact fun _ _ _ t e _ => hX e _
  · exact fun _ _ e => hX e _
  · exact fun t₂ ht₂ => ⟨rfl, look_write_write ht₁ ht₂⟩

/-! ### Calls that do not fail -/

/-- A failed call is enough for an error. -/
def Covers (good : Store → Outcome → Prop) (X : Error → Store → Prop) : Prop :=
  ∀ s o, good s o → o.fault ≠ none → ∀ e s', X e s'

/-- No call fails. -/
def Faultless (_ : Store) (o : Outcome) : Prop := o.fault = none

theorem covers_faultless : Covers Faultless X := fun _ _ ho hfault => absurd ho hfault

theorem covers_true : Covers good fun _ _ => True := fun _ _ _ _ _ _ => trivial

/-- A file is copied to a place where one may be written. -/
theorem ends_copyAndHash_of_file {source target : Path} {Q : String → Store → Prop}
    {bytes : List UInt8} (hX : Covers good X) (hsource : s.files.look source = some (.file bytes))
    (hwrite : ∀ b, ∃ t, s.files.write target b = some t)
    (h : ∀ t, s.files.write target bytes = some t → Q (sha256 bytes) (s.withFiles t)) :
    Ends good Q X (copyAndHash source target) s := by
  refine Ends.bind (M := fun read s' => s' = s ∧ read = bytes) ?_ ?_
  · apply ends_readFile
    · exact fun o ho hfault e => hX s o ho hfault e s
    · exact fun hnone => absurd hsource (hnone bytes)
    · intro read hread
      rw [hsource] at hread
      cases hread
      exact ⟨rfl, rfl⟩
  intro read s₁ h₁
  obtain ⟨hs₁, hread⟩ := h₁
  rw [hs₁, hread]
  refine Ends.bind (M := fun _ s' => ∃ t, s.files.write target bytes = some t ∧
    s' = s.withFiles t) ?_ ?_
  · apply ends_writeAll
    · exact fun o ho hfault t e _ => hX s o ho hfault e _
    · intro n hnone
      obtain ⟨t, ht⟩ := hwrite (bytes.take n)
      rw [ht] at hnone
      cases hnone
    · exact fun t ht => ⟨t, ht, rfl⟩
  rintro _ _ ⟨t, ht, rfl⟩
  refine Ends.bind (M := fun _ s' => s' = s.withFiles t) ?_ ?_
  · exact ends_change_of_some (fun o ho hfault e => hX _ o ho hfault e _) rfl rfl
  · intro _ s₂ hs₂
    rw [hs₂]
    exact h t ht

end Ends

/-! ### Runs that may be cut short -/

section Ok

variable {α : Type} {A : Call → Store → Prop} {G : Call → Store → Store → Prop}
  {Q : α → Store → Prop} {U : Unit → Store → Prop} {X : Error → Store → Prop} {s : Store}
  {p : Path}

theorem ok_change {call : Call} {f : FileTree → Option FileTree} (hfault : ∀ e, X e s)
    (hsame : G call s s)
    (h : ∀ t, f s.files = some t → G call s (s.withFiles t) ∧ U () (s.withFiles t)) :
    Ok (· = ·) A G U X (change call p f) s := by
  refine Ok.ask fun o => ?_
  cases o.fault with
  | some detail => exact hfault _
  | none =>
    rintro s' rfl -
    dsimp only
    cases hf : f s.files with
    | none => exact ⟨hsame, hfault _⟩
    | some t => exact h t hf

theorem ok_statement {f : Workspace → Except Error α × Workspace} (hfault : ∀ e, X e s)
    (hG : G .database s { s with tables := (f s.tables).2 })
    (hrefused : ∀ e, (f s.tables).1 = .error e → X e { s with tables := (f s.tables).2 })
    (h : ∀ a, (f s.tables).1 = .ok a → Q a { s with tables := (f s.tables).2 }) :
    Ok (· = ·) A G Q X (statement f) s := by
  refine Ok.ask fun o => ?_
  cases o.fault with
  | some detail => exact hfault _
  | none =>
    refine ok_stepE.2 ?_
    rintro s' rfl -
    exact ⟨hG, h, hrefused⟩

end Ok

/-! ### Tasks that only read -/

/-- No call of the task changes the state. -/
def Reads {α : Type} (task : Task α) : Prop := Frame (fun _ s s' => s' = s) (fun _ => True) task

section Reads

variable {α β : Type} {p : Path} {task : Task α}

theorem Reads.bind {g : α → Task β} (h : Reads task) (hg : ∀ a, Reads (g a)) :
    Reads (task.bind g) :=
  Frame.andThen h hg

theorem reads_ret {a : α} : Reads (.ret a) := trivial

theorem reads_throw {e : Error} : Reads (.throw e : Task α) := trivial

theorem Reads.attempt (h : Reads task) : Reads task.attempt :=
  (Frame.attempt h).mono (fun _ _ _ h => h) fun _ _ => trivial

theorem reads_ofExcept {r : Except Error α} : Reads (ofExcept r : Task α) :=
  frame_ofExcept fun _ _ => trivial

theorem reads_exists : Reads (exists_ p) := ⟨fun _ => rfl, fun _ => trivial⟩

theorem reads_isFile : Reads (isFile p) := ⟨fun _ => rfl, fun _ => trivial⟩

theorem reads_metadata : Reads (metadata p) := by
  refine Frame.ask fun o => ?_
  cases o.fault with
  | some detail => trivial
  | none => exact ⟨fun _ => rfl, fun _ => trivial⟩

theorem reads_readDir : Reads (readDir p) := by
  refine Frame.ask fun o => ?_
  cases o.fault with
  | some detail => trivial
  | none =>
    refine ⟨fun _ => rfl, fun s => ?_⟩
    dsimp only
    split <;> trivial

theorem reads_readFile : Reads (readFile p) := by
  refine Frame.ask fun o => ?_
  cases o.fault with
  | some detail => trivial
  | none =>
    refine ⟨fun _ => rfl, fun s => ?_⟩
    dsimp only
    split <;> trivial

/-- A call that leaves the files as they are. -/
theorem reads_change {call : Call} {f : FileTree → Option FileTree}
    (h : ∀ t t', f t = some t' → t' = t) : Reads (change call p f) := by
  refine Frame.ask fun o => ?_
  cases o.fault with
  | some detail => trivial
  | none =>
    refine ⟨fun s => ?_, fun s => ?_⟩
    · dsimp only
      cases hf : f s.files with
      | none => rfl
      | some t =>
        rw [h _ _ hf]
        rfl
    · dsimp only
      split <;> trivial

theorem reads_select {f : Workspace → Except Error α} : Reads (select f) := by
  refine Frame.ask fun o => ?_
  cases o.fault with
  | some detail => trivial
  | none => exact frame_stepE (fun _ => rfl) fun _ _ _ => trivial

/-- A task that only reads ends in the state that it began in. -/
theorem Reads.ends {s : Store} {good : Store → Outcome → Prop} (h : Reads task) :
    Ends good (fun _ s' => s' = s) (fun _ s' => s' = s) task s := by
  refine (Frame.ends (P := fun s' => s' = s) h rfl ?_).mono (fun _ _ h => h.2) fun _ _ h => h
  rintro call s₁ s₂ rfl rfl
  rfl

/-- A task that only reads may be cut short anywhere. -/
theorem Reads.ok {s : Store} {A : Call → Store → Prop}
    {G : Call → Store → Store → Prop} {Q : α → Store → Prop} {X : Error → Store → Prop}
    (h : Reads task) (hends : Ends (fun _ _ => True) Q X task s) (hG : ∀ call, G call s s) :
    Ok (· = ·) A G (fun a s' => Q a s' ∧ s' = s) (fun e s' => X e s' ∧ s' = s) task s := by
  refine hends.ok h rfl (fun _ _ h => h) ?_
  rintro call s₁ s₂ rfl rfl
  exact ⟨rfl, hG call⟩

end Reads

/-! ## Which calls are made -/

/-- Every call of the task is one of `C`. -/
def Calls {α : Type} (C : Call → Prop) (task : Task α) : Prop :=
  Frame (fun call _ _ => C call) (fun _ => True) task

section Calls

variable {α β : Type} {C : Call → Prop} {p : Path}

theorem Calls.bind {task : Task α} {g : α → Task β} (h : Calls C task) (hg : ∀ a, Calls C (g a)) :
    Calls C (task.bind g) :=
  Frame.andThen h hg

theorem calls_ret {a : α} : Calls C (.ret a) := trivial

theorem calls_throw {e : Error} : Calls C (.throw e : Task α) := trivial

theorem Calls.attempt {task : Task α} (h : Calls C task) : Calls C task.attempt :=
  (Frame.attempt h).mono (fun _ _ _ h => h) fun _ _ => trivial

theorem calls_ofExcept {r : Except Error α} : Calls C (ofExcept r : Task α) :=
  frame_ofExcept fun _ _ => trivial

theorem calls_exists (h : C (.metadata p)) : Calls C (exists_ p) := ⟨fun _ => h, fun _ => trivial⟩

theorem calls_isFile (h : C (.metadata p)) : Calls C (isFile p) := ⟨fun _ => h, fun _ => trivial⟩

theorem calls_metadata (h : C (.metadata p)) : Calls C (metadata p) := by
  refine Frame.ask fun o => ?_
  cases o.fault with
  | some detail => trivial
  | none => exact ⟨fun _ => h, fun _ => trivial⟩

theorem calls_readDir (h : C (.readDir p)) : Calls C (readDir p) := by
  refine Frame.ask fun o => ?_
  cases o.fault with
  | some detail => trivial
  | none =>
    refine ⟨fun _ => h, fun s => ?_⟩
    dsimp only
    split <;> trivial

theorem calls_readFile (h : C (.read p)) : Calls C (readFile p) := by
  refine Frame.ask fun o => ?_
  cases o.fault with
  | some detail => trivial
  | none =>
    refine ⟨fun _ => h, fun s => ?_⟩
    dsimp only
    split <;> trivial

theorem calls_perform {call : Call} {f : FileTree → Option FileTree} (h : C call) :
    Calls C (perform call p f) := by
  refine ⟨fun _ => h, fun s => ?_⟩
  dsimp only
  split <;> trivial

theorem calls_change {call : Call} {f : FileTree → Option FileTree} (h : C call) :
    Calls C (change call p f) := by
  refine Frame.ask fun o => ?_
  cases o.fault with
  | some detail => trivial
  | none => exact calls_perform h

theorem calls_writeAll {bytes : List UInt8} (h : C (.write p)) : Calls C (writeAll p bytes) := by
  refine Frame.ask fun o => ?_
  cases o.fault with
  | some detail => exact (calls_perform h).bind fun _ => calls_throw
  | none => exact calls_perform h

theorem calls_writeFile {bytes : List UInt8} (h : C (.write p)) : Calls C (writeFile p bytes) :=
  (calls_change h).bind fun _ => calls_writeAll h

theorem calls_statement {f : Workspace → Except Error α × Workspace} (h : C .database) :
    Calls C (statement f) := by
  refine Frame.ask fun o => ?_
  cases o.fault with
  | some detail => trivial
  | none => exact frame_stepE (fun _ => h) fun _ _ _ => trivial

theorem calls_ignore {task : Task Unit} (h : Calls C task) : Calls C (ignore task) :=
  h.attempt.bind fun _ => calls_ret

theorem calls_onError {task : Task α} {cleanup : Task Unit} (h : Calls C task)
    (h' : Calls C cleanup) : Calls C (onError task cleanup) := by
  refine h.attempt.bind fun r => ?_
  cases r with
  | ok a => exact calls_ret
  | error e => exact (calls_ignore h').bind fun _ => calls_throw

theorem calls_copyAndHash {source target : Path} (hread : C (.read source))
    (hwrite : C (.write target)) (hsync : C (.sync target)) :
    Calls C (copyAndHash source target) := by
  refine (calls_readFile hread).bind fun bytes => ?_
  refine (calls_writeAll hwrite).bind fun _ => ?_
  exact (calls_change hsync).bind fun _ => calls_ret

end Calls

end Store

end MachineEmu
