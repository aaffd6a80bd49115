import MachineEmu.Storage.Rows

/-!
# The operation log

Every sequence of calls on the operations table: beginning, completing and failing operations,
reconciling the interrupted ones, and what other statements do to the other tables.

* `Workspace.reconcileOperations` — the reconciliation, one operation after the other.
* `Law` — a settled operation never changes, the key of an operation identifies it, a repeated
  begin returns it and a different one conflicts, a reconciliation settles every operation.
* `law_of_completesAccepted` — the law, for the runs that complete accepted operations only.
* `not_law` — a completion rewrites an operation that has failed.
-/

namespace MachineEmu

open Lib List

namespace Workspace

/-- Complete or fail one interrupted operation. Source: `storage/operations.rs`
`reconcile_operations`, the body of its loop. -/
def reconcileOperation (w : Workspace) (o : Id) : Except Error Operation × Workspace :=
  match w.operation o with
  | .error e => (.error e, w)
  | .ok row =>
    match w.recoveredResult row with
    | .error e => (.error e, w)
    | .ok (some result) => w.completeOperation o result
    | .ok none => w.failOperation o "interrupted_by_recovery"

/-- The loop of the reconciliation. -/
def reconcileEach : List Id → Workspace → Except Error (List Operation) × Workspace
  | [], w => (.ok [], w)
  | o :: rest, w =>
    match w.reconcileOperation o with
    | (.error e, w') => (.error e, w')
    | (.ok changed, w') =>
      match reconcileEach rest w' with
      | (.error e, w'') => (.error e, w'')
      | (.ok operations, w'') => (.ok (changed :: operations), w'')

/-- Source: `storage/operations.rs` `reconcile_operations`. -/
def reconcileOperations (w : Workspace) : Except Error (List Operation) × Workspace :=
  reconcileEach w.acceptedOperations w

end Workspace

namespace OperationLog

open Workspace

/-! ## Calls -/

/-- A call on the log. -/
inductive Call where
  | begin_ (operationId instanceId : Id) (kind idempotencyKey inputJson : String) (now : Nat)
  | complete (operationId : Id) (result : OperationResult)
  | fail (operationId : Id) (reason : String)
  | reconcile

/-- The tables, and the input that each operation was begun with. The database keeps only the
digest of the input; the inputs are here for the statements. -/
structure Log where
  tables : Workspace
  inputs : Id → String

/-- What a call returns, and the tables after it. -/
def answer (w : Workspace) : Call → Except Error (List Operation) × Workspace
  | .begin_ o i kind key inputJson now =>
    let r := w.beginOperation o i kind key inputJson now
    (r.1.map fun operation => [operation], r.2)
  | .complete o result =>
    let r := w.completeOperation o result
    (r.1.map fun operation => [operation], r.2)
  | .fail o reason =>
    let r := w.failOperation o reason
    (r.1.map fun operation => [operation], r.2)
  | .reconcile => w.reconcileOperations

/-- The inputs after a call: a begin that inserts a row records its input. -/
def record (log : Log) : Call → Id → String
  | .begin_ o _ _ _ inputJson _ =>
    if log.tables.operations.find? o = none then Function.update log.inputs o inputJson
    else log.inputs
  | _ => log.inputs

/-- The log after a call. -/
def after (log : Log) (call : Call) : Log :=
  { tables := (answer log.tables call).2, inputs := record log call }

/-- What happens to the log. -/
inductive Event where
  | call (call : Call)
  | crash (reconciled : Nat)
  | elsewhere

/-- A call, a crash that cuts a reconciliation short after some operations, or a change of the
other tables, reopening included, that keeps the instances the operations belong to. -/
inductive Step : Log → Event → Log → Prop
  | call (log : Log) (call : Call) : Step log (.call call) (after log call)
  | crash (log : Log) (n : Nat) :
      Step log (.crash n)
        { log with
          tables := (Workspace.reconcileEach (log.tables.acceptedOperations.take n) log.tables).2 }
  | elsewhere (log : Log) (w : Workspace) (h : w.operations = log.tables.operations)
      (hparent : ∀ row ∈ log.tables.operations.rows, w.instanceRow row.instanceId ≠ none) :
      Step log .elsewhere { log with tables := w }

/-- The runs whose events a policy admits. -/
inductive Reaches (ok : Log → Event → Prop) : Log → Log → Prop
  | refl (log : Log) : Reaches ok log log
  | step (first log log' : Log) (e : Event) (h : Reaches ok first log) (hok : ok log e)
      (hstep : Step log e log') : Reaches ok first log'

/-- The log of a workspace without operations. -/
def Fresh (log : Log) : Prop := log.tables.operations = Table.empty

/-! ## The law -/

/-- The law of a log, for the runs that a policy admits. -/
structure Law (ok : Log → Event → Prop) (first : Log) : Prop where
  /-- A completed or failed operation never changes. -/
  settled : ∀ log log', Fresh first → Reaches ok first log → Reaches ok log log' →
    ∀ row ∈ log.tables.operations.rows, row.status ≠ .accepted →
      row ∈ log'.tables.operations.rows
  /-- There is at most one operation for each instance and key. -/
  key : ∀ log, Fresh first → Reaches ok first log →
    ∀ a ∈ log.tables.operations.rows, ∀ b ∈ log.tables.operations.rows,
      a.instanceId = b.instanceId → a.idempotencyKey = b.idempotencyKey → a = b
  /-- A begin under the key of an operation returns it when kind and input are its own, and
  conflicts otherwise; the tables stay. -/
  again : ∀ log, Fresh first → Reaches ok first log →
    ∀ row ∈ log.tables.operations.rows, ∀ o kind inputJson now,
      ok log (.call (.begin_ o row.instanceId kind row.idempotencyKey inputJson now)) →
        answer log.tables (.begin_ o row.instanceId kind row.idempotencyKey inputJson now) =
          (if kind = row.kind ∧ inputJson = log.inputs row.operationId then .ok [row]
            else .error (.operationConflict row.idempotencyKey), log.tables)
  /-- A reconciliation succeeds, leaves no accepted operation, and changes nothing when it is
  repeated. -/
  reconcile : ∀ log, Fresh first → Reaches ok first log →
    (∃ changed, (answer log.tables .reconcile).1 = .ok changed) ∧
    (∀ row ∈ (after log .reconcile).tables.operations.rows, row.status ≠ .accepted) ∧
    answer (after log .reconcile).tables .reconcile = (.ok [], (after log .reconcile).tables)

/-! ## The statements -/

variable {w w' : Workspace} {o i : Id} {row : Operation}

/-- The rows stay, up to the status and the result of operations that are not settled. -/
structure Settles (w w' : Workspace) : Prop where
  instances : w'.instances = w.instances
  rows : ∃ f : Operation → Operation, w'.operations.rows = w.operations.rows.map f ∧
    (∀ row, (f row).operationId = row.operationId ∧ (f row).instanceId = row.instanceId ∧
      (f row).kind = row.kind ∧ (f row).idempotencyKey = row.idempotencyKey ∧
      (f row).inputSha256 = row.inputSha256) ∧
    ∀ row ∈ w.operations.rows, row.status ≠ .accepted → f row = row

theorem Settles.refl (w : Workspace) : Settles w w :=
  ⟨rfl, id, (map_id _).symm, fun _ => ⟨rfl, rfl, rfl, rfl, rfl⟩, fun _ _ _ => rfl⟩

theorem Settles.mem (h : Settles w w') (hrow : row ∈ w.operations.rows)
    (hstatus : row.status ≠ .accepted) : row ∈ w'.operations.rows := by
  obtain ⟨f, hf, _, hkeep⟩ := h.rows
  rw [hf]
  exact mem_map.2 ⟨row, hrow, hkeep row hrow hstatus⟩

theorem Settles.trans {w'' : Workspace} (h : Settles w w') (h' : Settles w' w'') :
    Settles w w'' := by
  obtain ⟨f, hf, hfkeys, hfkeep⟩ := h.rows
  obtain ⟨g, hg, hgkeys, hgkeep⟩ := h'.rows
  refine ⟨h'.instances.trans h.instances, g ∘ f, ?_, fun row => ?_, fun row hrow hstatus => ?_⟩
  · rw [hg, hf, map_map]
  · obtain ⟨h₁, h₂, h₃, h₄, h₅⟩ := hfkeys row
    obtain ⟨k₁, k₂, k₃, k₄, k₅⟩ := hgkeys (f row)
    exact ⟨k₁.trans h₁, k₂.trans h₂, k₃.trans h₃, k₄.trans h₄, k₅.trans h₅⟩
  · have hsame := hfkeep row hrow hstatus
    rw [Function.comp_apply, hsame]
    refine hgkeep row ?_ hstatus
    exact h.mem hrow hstatus

/-- An accepted operation is settled. -/
theorem settles_setOperation {status : OperationStatus} {result : OperationResult}
    (haccepted : ∀ row, w.operations.find? o = some row → row.status = .accepted) :
    Settles w (w.setOperation o status result) := by
  refine ⟨rfl, fun row => if row.operationId = o then
    { row with status, resultJson := some result } else row, rfl, fun row => ?_,
    fun row hrow hstatus => ?_⟩
  · dsimp only
    split <;> exact ⟨rfl, rfl, rfl, rfl, rfl⟩
  · refine if_neg fun hid => hstatus (haccepted row ?_)
    exact Table.find?_eq_some_iff.2 ⟨hrow, hid⟩

theorem find?_setOperation {status : OperationStatus} {result : OperationResult} (j : Id) :
    (w.setOperation o status result).operations.find? j =
      if j = o then (w.operations.find? o).map fun row =>
        { row with status, resultJson := some result }
      else w.operations.find? j := by
  unfold Workspace.setOperation
  dsimp only
  rw [Table.find?_modifyAt]

theorem operation_eq_ok : w.operation o = .ok row ↔ w.operations.find? o = some row := by
  unfold Workspace.operation
  cases w.operations.find? o <;> simp

theorem completeOperation_cases (w : Workspace) (o : Id) (result : OperationResult) :
    (∃ row, w.operations.find? o = some row ∧ w.completeOperation o result =
      (.ok { row with status := .completed, resultJson := some result },
        w.setOperation o .completed result)) ∨
    (w.operations.find? o = none ∧ ∃ e, w.completeOperation o result = (.error e, w)) := by
  unfold Workspace.completeOperation
  cases hrow : w.operations.find? o with
  | none =>
    refine .inr ⟨rfl, ?_⟩
    unfold Workspace.operation
    rw [hrow]
    exact ⟨_, rfl⟩
  | some row =>
    refine .inl ⟨row, rfl, ?_⟩
    rw [operation_eq_ok.2 hrow]
    refine Prod.ext (operation_eq_ok.2 ?_) rfl
    rw [find?_setOperation, if_pos rfl, hrow]
    rfl

theorem failOperation_cases (w : Workspace) (o : Id) (reason : String) :
    (∃ row, w.operations.find? o = some row ∧ row.status = .accepted ∧ w.failOperation o reason =
      (.ok { row with status := .failed, resultJson := some (.error reason) },
        w.setOperation o .failed (.error reason))) ∨
    (∃ e, w.failOperation o reason = (.error e, w)) := by
  unfold Workspace.failOperation
  cases hrow : w.operations.find? o with
  | none =>
    refine .inr ?_
    unfold Workspace.operation
    rw [hrow]
    exact ⟨_, rfl⟩
  | some row =>
    rw [operation_eq_ok.2 hrow]
    dsimp only
    by_cases hstatus : row.status = .accepted
    · refine .inl ⟨row, rfl, hstatus, ?_⟩
      rw [if_pos hstatus]
      refine Prod.ext (operation_eq_ok.2 ?_) rfl
      rw [find?_setOperation, if_pos rfl, hrow]
      rfl
    · refine .inr ⟨.process ("operation " ++ o.asStr ++ " is not accepted"), ?_⟩
      rw [if_neg hstatus]

/-- A begin returns an existing operation, reports an error, or inserts a row. -/
theorem beginOperation_cases (w : Workspace) (o i : Id) (kind key inputJson : String) (now : Nat) :
    (w.beginOperation o i kind key inputJson now).2 = w ∨
    ∃ row operations, w.operations.insert row = some operations ∧ row.operationId = o ∧
      row.instanceId = i ∧ row.idempotencyKey = key ∧
      row.inputSha256 = Lib.Sha256.hexDigest inputJson ∧ w.instanceRow i ≠ none ∧
      (∀ other ∈ w.operations.rows, other.instanceId = i → other.idempotencyKey ≠ key) ∧
      (w.beginOperation o i kind key inputJson now).2 = { w with operations } := by
  unfold Workspace.beginOperation
  cases hinstance : w.instance_ i with
  | error e => exact .inl rfl
  | ok current =>
    dsimp only
    cases hexisting : w.operations.rows.find? fun row =>
        row.instanceId = i && row.idempotencyKey = key with
    | some existing =>
      dsimp only
      split <;> exact .inl rfl
    | none =>
      dsimp only
      cases hinsert : w.operations.insert
          { operationId := o, instanceId := i, kind, idempotencyKey := key,
            inputSha256 := Lib.Sha256.hexDigest inputJson, status := .accepted,
            resultJson := none, createdAt := now } with
      | none => exact .inl rfl
      | some operations =>
        refine .inr ⟨_, operations, hinsert, rfl, rfl, rfl, rfl, ?_, ?_, rfl⟩
        · rw [instance_eq_ok.1 hinstance]
          exact Option.some_ne_none _
        · intro other hmem hi hkey
          have hnone := List.find?_eq_none.1 hexisting other hmem
          simp [hi, hkey] at hnone

/-! ## The reconciliation -/

/-- An accepted operation of a known instance is settled by its reconciliation. -/
theorem reconcileOperation_of_accepted (hrow : w.operations.find? o = some row)
    (hstatus : row.status = .accepted) (hparent : w.instanceRow row.instanceId ≠ none) :
    ∃ changed status result, status ≠ .accepted ∧
      w.reconcileOperation o = (.ok changed, w.setOperation o status result) := by
  unfold Workspace.reconcileOperation
  rw [operation_eq_ok.2 hrow]
  have hresult : ∃ completed, w.recoveredResult row = .ok completed := by
    obtain ⟨current, hcurrent⟩ := Option.ne_none_iff_exists'.1 hparent
    unfold Workspace.recoveredResult
    rw [instance_eq_ok.2 hcurrent]
    dsimp only
    split
    · split
      · exact ⟨_, rfl⟩
      · exact ⟨_, rfl⟩
    · split
      · exact ⟨_, rfl⟩
      · exact ⟨_, rfl⟩
  obtain ⟨completed, hresult⟩ := hresult
  dsimp only
  rw [hresult]
  cases completed with
  | some result =>
    rcases completeOperation_cases w o result with ⟨row', _, hstep⟩ | ⟨hnone, _⟩
    · exact ⟨_, _, _, by simp, hstep⟩
    · rw [hrow] at hnone
      cases hnone
  | none =>
    rcases failOperation_cases w o "interrupted_by_recovery" with
      ⟨row', _, _, hstep⟩ | ⟨e, hstep⟩
    · exact ⟨_, _, _, by simp, hstep⟩
    · -- an accepted operation does not refuse to fail
      unfold Workspace.failOperation at hstep
      rw [operation_eq_ok.2 hrow] at hstep
      simp only [hstatus, if_true] at hstep
      have hok : (w.setOperation o .failed (.error "interrupted_by_recovery")).operation o =
          .ok { row with status := .failed,
                         resultJson := some (.error "interrupted_by_recovery") } := by
        refine operation_eq_ok.2 ?_
        rw [find?_setOperation, if_pos rfl, hrow]
        rfl
      rw [hok] at hstep
      cases hstep

/-- The operations that a reconciliation goes through are accepted and belong to known
instances. -/
def Pending (w : Workspace) (ids : List Id) : Prop :=
  ∀ o ∈ ids, ∃ row, w.operations.find? o = some row ∧ row.status = .accepted ∧
    w.instanceRow row.instanceId ≠ none

/-- The reconciliation of distinct pending operations succeeds and settles them. -/
theorem reconcileEach_of_pending {ids : List Id} (hnodup : ids.Nodup) (h : Pending w ids) :
    ∃ changed, (Workspace.reconcileEach ids w).1 = .ok changed ∧
      Settles w (Workspace.reconcileEach ids w).2 ∧
      ∀ row ∈ (Workspace.reconcileEach ids w).2.operations.rows, row.status = .accepted →
        row ∈ w.operations.rows ∧ row.operationId ∉ ids := by
  induction ids generalizing w with
  | nil => exact ⟨[], rfl, Settles.refl w, fun row hrow _ => ⟨hrow, not_mem_nil⟩⟩
  | cons o rest ih =>
    obtain ⟨hnew, hrest⟩ := nodup_cons.1 hnodup
    obtain ⟨row, hrow, hstatus, hparent⟩ := h o mem_cons_self
    obtain ⟨changed, status, result, hsettled, hstep⟩ :=
      reconcileOperation_of_accepted hrow hstatus hparent
    have hsettles : Settles w (w.setOperation o status result) := by
      refine settles_setOperation fun row' hrow' => ?_
      rw [hrow] at hrow'
      cases hrow'
      exact hstatus
    have hpending : Pending (w.setOperation o status result) rest := by
      intro q hq
      obtain ⟨row', hrow', hstatus', hparent'⟩ := h q (mem_cons_of_mem o hq)
      refine ⟨row', ?_, hstatus', hparent'⟩
      rw [find?_setOperation, if_neg, hrow']
      rintro rfl
      exact hnew hq
    obtain ⟨operations, hok, htail, haccepted⟩ := ih hrest hpending
    unfold Workspace.reconcileEach
    rw [hstep]
    dsimp only
    cases hres : Workspace.reconcileEach rest (w.setOperation o status result) with
    | mk result' w'' =>
      rw [hres] at hok htail haccepted
      simp only at hok htail haccepted
      subst hok
      refine ⟨changed :: operations, rfl, hsettles.trans htail, fun row' hrow' hstatus' => ?_⟩
      obtain ⟨hmem, hid⟩ := haccepted row' hrow' hstatus'
      -- the row was accepted after the first operation, so it is another one
      obtain ⟨old, hold, rfl⟩ := mem_map.1 hmem
      by_cases hsame : old.operationId = o
      · rw [if_pos hsame] at hstatus'
        exact absurd hstatus' hsettled
      · rw [if_neg hsame] at hid ⊢
        refine ⟨hold, fun hmem => ?_⟩
        rcases mem_cons.1 hmem with hmem | hmem
        · exact hsame hmem
        · exact hid hmem

theorem mem_acceptedOperations : o ∈ w.acceptedOperations ↔
    ∃ row ∈ w.operations.rows, row.status = .accepted ∧ row.operationId = o := by
  unfold Workspace.acceptedOperations
  simp [mem_insertionSort, and_assoc]

theorem nodup_acceptedOperations (w : Workspace) : w.acceptedOperations.Nodup := by
  unfold Workspace.acceptedOperations
  have hperm := perm_insertionSort beforeOperation
    (w.operations.rows.filter fun row => row.status = .accepted)
  refine ((hperm.map Operation.operationId).nodup_iff).2 ?_
  exact w.operations.nodup.sublist (filter_sublist.map Operation.operationId)

theorem pending_acceptedOperations
    (hparent : ∀ row ∈ w.operations.rows, w.instanceRow row.instanceId ≠ none) :
    Pending w w.acceptedOperations := by
  intro o ho
  obtain ⟨row, hrow, hstatus, hid⟩ := mem_acceptedOperations.1 ho
  exact ⟨row, Table.find?_eq_some_iff.2 ⟨hrow, hid⟩, hstatus, hparent row hrow⟩

/-! ## The invariant -/

/-- Keys are unique, every operation belongs to an instance, and every row has the digest of its
input. -/
structure Sound (log : Log) : Prop where
  key : ∀ a ∈ log.tables.operations.rows, ∀ b ∈ log.tables.operations.rows,
    a.instanceId = b.instanceId → a.idempotencyKey = b.idempotencyKey → a = b
  parent : ∀ row ∈ log.tables.operations.rows, log.tables.instanceRow row.instanceId ≠ none
  digest : ∀ row ∈ log.tables.operations.rows,
    row.inputSha256 = Lib.Sha256.hexDigest (log.inputs row.operationId)

variable {log log' first : Log} {e : Event}

theorem Fresh.sound (h : Fresh log) : Sound log := by
  have hrows : log.tables.operations.rows = [] := by
    rw [h]
    rfl
  constructor <;> rw [hrows] <;> simp

theorem Sound.settles (h : Sound log) (hs : Settles log.tables w') :
    Sound { log with tables := w' } := by
  obtain ⟨f, hf, hkeys, _⟩ := hs.rows
  constructor
  · intro a ha b hb hi hkey
    dsimp only at ha hb
    rw [hf] at ha hb
    obtain ⟨a, hmema, rfl⟩ := mem_map.1 ha
    obtain ⟨b, hmemb, rfl⟩ := mem_map.1 hb
    obtain ⟨_, hia, _, hka, _⟩ := hkeys a
    obtain ⟨_, hib, _, hkb, _⟩ := hkeys b
    rw [hia, hib] at hi
    rw [hka, hkb] at hkey
    rw [h.key a hmema b hmemb hi hkey]
  · intro a ha
    dsimp only at ha
    rw [hf] at ha
    obtain ⟨a, hmem, rfl⟩ := mem_map.1 ha
    rw [(hkeys a).2.1]
    have hparent := h.parent a hmem
    unfold instanceRow at hparent ⊢
    rw [hs.instances]
    exact hparent
  · intro a ha
    dsimp only at ha
    rw [hf] at ha
    obtain ⟨a, hmem, rfl⟩ := mem_map.1 ha
    obtain ⟨ho, _, _, _, hdigest⟩ := hkeys a
    rw [ho, hdigest]
    exact h.digest a hmem

/-- A begin keeps every row, and the invariant. -/
theorem Sound.begin_ (h : Sound log) (o i : Id) (kind key inputJson : String) (now : Nat) :
    Sound (after log (.begin_ o i kind key inputJson now)) ∧
      ∀ row ∈ log.tables.operations.rows,
        row ∈ (after log (.begin_ o i kind key inputJson now)).tables.operations.rows := by
  have hinputs : ∀ row ∈ log.tables.operations.rows,
      record log (.begin_ o i kind key inputJson now) row.operationId =
        log.inputs row.operationId := by
    intro row hrow
    unfold record
    dsimp only
    split
    · next hnone =>
      refine Function.update_of_ne ?_ _ _
      exact Table.find?_eq_none_iff.1 hnone row hrow
    · rfl
  rcases beginOperation_cases log.tables o i kind key inputJson now with
    hsame | ⟨row, operations, hinsert, hid, hi, hkey, hdigest, hparent, hnew, hnext⟩
  · have htables : (after log (.begin_ o i kind key inputJson now)).tables = log.tables := hsame
    rw [htables]
    refine ⟨⟨?_, ?_, ?_⟩, fun row hrow => hrow⟩
    · rw [htables]
      exact h.key
    · rw [htables]
      exact h.parent
    · rw [htables]
      intro row hrow
      exact (h.digest row hrow).trans (congrArg Lib.Sha256.hexDigest (hinputs row hrow).symm)
  · have htables : (after log (.begin_ o i kind key inputJson now)).tables =
        { log.tables with operations } := hnext
    obtain ⟨hrows, hnone⟩ := Table.insert_eq_some hinsert
    have hmem : ∀ a, a ∈ (after log (.begin_ o i kind key inputJson now)).tables.operations.rows ↔
        a ∈ log.tables.operations.rows ∨ a = row := by
      intro a
      rw [htables, hrows, mem_append, mem_singleton]
    refine ⟨⟨?_, ?_, ?_⟩, fun a ha => (hmem a).2 (.inl ha)⟩
    · intro a ha b hb hi' hkey'
      rcases (hmem a).1 ha with ha | rfl
      · rcases (hmem b).1 hb with hb | rfl
        · exact h.key a ha b hb hi' hkey'
        · exact absurd (hkey'.trans hkey) (hnew a ha (hi'.trans hi))
      · rcases (hmem b).1 hb with hb | rfl
        · exact absurd (hkey'.symm.trans hkey) (hnew b hb (hi'.symm.trans hi))
        · rfl
    · intro a ha
      rw [htables]
      rcases (hmem a).1 ha with ha | rfl
      · exact h.parent a ha
      · rw [hi]
        exact hparent
    · intro a ha
      rcases (hmem a).1 ha with ha | rfl
      · exact (h.digest a ha).trans (congrArg Lib.Sha256.hexDigest (hinputs a ha).symm)
      · rw [hdigest]
        refine congrArg Lib.Sha256.hexDigest ?_
        have hfind : log.tables.operations.find? o = none := by
          rw [← hid]
          exact hnone
        unfold after record
        dsimp only
        rw [if_pos hfind, hid, Function.update_self]

/-- A prefix of the reconciliation settles operations. -/
theorem Sound.settles_reconcileEach (h : Sound log) (n : Nat) :
    Settles log.tables
      (Workspace.reconcileEach (log.tables.acceptedOperations.take n) log.tables).2 := by
  have hnodup := (nodup_acceptedOperations log.tables).sublist (take_sublist n _)
  have hpending : Pending log.tables (log.tables.acceptedOperations.take n) :=
    fun o ho => pending_acceptedOperations h.parent o (mem_of_mem_take ho)
  obtain ⟨_, _, hsettles, _⟩ := reconcileEach_of_pending hnodup hpending
  exact hsettles

/-- The reconciliation succeeds and settles every operation. -/
theorem Sound.reconcileOperations (h : Sound log) :
    ∃ changed w', log.tables.reconcileOperations = (.ok changed, w') ∧
      Settles log.tables w' ∧ ∀ row ∈ w'.operations.rows, row.status ≠ .accepted := by
  obtain ⟨changed, hok, hsettles, haccepted⟩ := reconcileEach_of_pending
    (nodup_acceptedOperations log.tables) (pending_acceptedOperations h.parent)
  refine ⟨changed, _, Prod.ext hok rfl, hsettles, fun row hrow hstatus => ?_⟩
  obtain ⟨hmem, hid⟩ := haccepted row hrow hstatus
  exact hid (mem_acceptedOperations.2 ⟨row, hmem, hstatus, rfl⟩)

/-! ## The law holds -/

/-- A completion names an operation that is still accepted, and the input of a begin has the
digest of no other input. -/
def CompletesAccepted (log : Log) : Event → Prop
  | .call (.begin_ _ _ _ _ inputJson _) => ∀ row ∈ log.tables.operations.rows,
      Lib.Sha256.hexDigest inputJson = Lib.Sha256.hexDigest (log.inputs row.operationId) →
        inputJson = log.inputs row.operationId
  | .call (.complete o _) =>
      ∀ row, log.tables.operations.find? o = some row → row.status = .accepted
  | _ => True

/-- One event keeps the invariant and the settled operations. -/
theorem Sound.step (h : Sound log) (hok : CompletesAccepted log e) (hstep : Step log e log') :
    Sound log' ∧ ∀ row ∈ log.tables.operations.rows, row.status ≠ .accepted →
      row ∈ log'.tables.operations.rows := by
  have hsettles : ∀ w', Settles log.tables w' → Sound { log with tables := w' } ∧
      ∀ row ∈ log.tables.operations.rows, row.status ≠ .accepted → row ∈ w'.operations.rows :=
    fun w' hs => ⟨h.settles hs, fun row hrow hstatus => hs.mem hrow hstatus⟩
  cases hstep with
  | call call =>
    cases call with
    | begin_ o i kind key inputJson now =>
      obtain ⟨hsound, hkeep⟩ := h.begin_ o i kind key inputJson now
      exact ⟨hsound, fun row hrow _ => hkeep row hrow⟩
    | complete o result =>
      refine hsettles _ ?_
      rcases completeOperation_cases log.tables o result with ⟨row, _, hstep⟩ | ⟨_, e, hstep⟩
      · rw [show (answer log.tables (.complete o result)).2 =
          (log.tables.completeOperation o result).2 from rfl, hstep]
        exact settles_setOperation hok
      · rw [show (answer log.tables (.complete o result)).2 =
          (log.tables.completeOperation o result).2 from rfl, hstep]
        exact Settles.refl _
    | fail o reason =>
      refine hsettles _ ?_
      rcases failOperation_cases log.tables o reason with
        ⟨row, hrow, hstatus, hstep⟩ | ⟨e, hstep⟩
      · rw [show (answer log.tables (.fail o reason)).2 =
          (log.tables.failOperation o reason).2 from rfl, hstep]
        refine settles_setOperation fun row' hrow' => ?_
        rw [hrow] at hrow'
        cases hrow'
        exact hstatus
      · rw [show (answer log.tables (.fail o reason)).2 =
          (log.tables.failOperation o reason).2 from rfl, hstep]
        exact Settles.refl _
    | reconcile =>
      obtain ⟨_, w', hres, hs, _⟩ := h.reconcileOperations
      refine hsettles _ ?_
      rw [show (answer log.tables .reconcile).2 = log.tables.reconcileOperations.2 from rfl, hres]
      exact hs
  | crash n => exact hsettles _ (h.settles_reconcileEach n)
  | elsewhere w hsame hparent =>
    refine ⟨⟨?_, ?_, ?_⟩, fun row hrow _ => ?_⟩
    · rw [hsame]
      exact h.key
    · rw [hsame]
      exact hparent
    · rw [hsame]
      exact h.digest
    · rw [hsame]
      exact hrow

/-- A run keeps the invariant and the settled operations. -/
theorem Sound.reaches (h : Sound first) (hrun : Reaches CompletesAccepted first log) :
    Sound log ∧ ∀ row ∈ first.tables.operations.rows, row.status ≠ .accepted →
      row ∈ log.tables.operations.rows := by
  induction hrun with
  | refl => exact ⟨h, fun row hrow _ => hrow⟩
  | step log log' e _ hok hstep ih =>
    obtain ⟨hsound, hkept⟩ := ih
    obtain ⟨hsound', hkept'⟩ := hsound.step hok hstep
    exact ⟨hsound', fun row hrow hstatus => hkept' row (hkept row hrow hstatus) hstatus⟩

/-- A begin under the key of an operation. -/
theorem Sound.again {row : Operation} (h : Sound log) (hrow : row ∈ log.tables.operations.rows)
    (o : Id) (kind inputJson : String) (now : Nat)
    (hcollision : Lib.Sha256.hexDigest inputJson =
      Lib.Sha256.hexDigest (log.inputs row.operationId) → inputJson = log.inputs row.operationId) :
    log.tables.beginOperation o row.instanceId kind row.idempotencyKey inputJson now =
      (if kind = row.kind ∧ inputJson = log.inputs row.operationId then .ok row
        else .error (.operationConflict row.idempotencyKey), log.tables) := by
  obtain ⟨current, hcurrent⟩ := Option.ne_none_iff_exists'.1 (h.parent row hrow)
  have hexisting : (log.tables.operations.rows.find? fun other =>
      other.instanceId = row.instanceId && other.idempotencyKey = row.idempotencyKey) =
        some row := by
    cases hfind : log.tables.operations.rows.find? fun other =>
        other.instanceId = row.instanceId && other.idempotencyKey = row.idempotencyKey with
    | none =>
      have hnone := List.find?_eq_none.1 hfind row hrow
      simp at hnone
    | some other =>
      have hsame := List.find?_some hfind
      simp only [Bool.and_eq_true, decide_eq_true_eq] at hsame
      rw [h.key other (mem_of_find?_eq_some hfind) row hrow hsame.1 hsame.2]
  unfold Workspace.beginOperation
  rw [instance_eq_ok.2 hcurrent]
  dsimp only
  rw [hexisting]
  dsimp only
  rw [h.digest row hrow]
  by_cases hsame : kind = row.kind ∧ inputJson = log.inputs row.operationId
  · have hstored : ¬ (row.kind ≠ kind ∨ Lib.Sha256.hexDigest (log.inputs row.operationId) ≠
        Lib.Sha256.hexDigest inputJson) := by
      rw [hsame.1, hsame.2]
      simp
    rw [if_pos hsame, if_neg hstored]
  · have hother : row.kind ≠ kind ∨ Lib.Sha256.hexDigest (log.inputs row.operationId) ≠
        Lib.Sha256.hexDigest inputJson := by
      by_cases hkind : row.kind = kind
      · refine .inr fun hdigest => hsame ⟨hkind.symm, hcollision hdigest.symm⟩
      · exact .inl hkind
    rw [if_neg hsame, if_pos hother]

/-- The law holds of every run whose completions name accepted operations. -/
theorem law_of_completesAccepted (first : Log) : Law CompletesAccepted first where
  settled log log' hfresh hrun hrun' row hrow hstatus := by
    obtain ⟨hsound, _⟩ := hfresh.sound.reaches hrun
    exact (hsound.reaches hrun').2 row hrow hstatus
  key log hfresh hrun := (hfresh.sound.reaches hrun).1.key
  again log hfresh hrun row hrow o kind inputJson now hok := by
    obtain ⟨hsound, _⟩ := hfresh.sound.reaches hrun
    unfold answer
    dsimp only
    rw [hsound.again hrow o kind inputJson now (hok row hrow)]
    split <;> rfl
  reconcile log hfresh hrun := by
    obtain ⟨hsound, _⟩ := hfresh.sound.reaches hrun
    obtain ⟨changed, w', hres, _, hsettled⟩ := hsound.reconcileOperations
    have htables : (after log .reconcile).tables = w' := by
      rw [show (after log .reconcile).tables = log.tables.reconcileOperations.2 from rfl, hres]
    have hnone : w'.acceptedOperations = [] := by
      refine eq_nil_iff_forall_not_mem.2 fun o ho => ?_
      obtain ⟨row, hrow, hstatus, _⟩ := mem_acceptedOperations.1 ho
      exact hsettled row hrow hstatus
    refine ⟨⟨changed, ?_⟩, ?_, ?_⟩
    · rw [show answer log.tables .reconcile = log.tables.reconcileOperations from rfl, hres]
    · rw [htables]
      exact hsettled
    · rw [htables]
      unfold answer Workspace.reconcileOperations
      dsimp only
      rw [hnone]
      rfl

/-! ## A late completion -/

/-- A workspace with one created instance. -/
def oneInstance : Workspace :=
  (Workspace.insertInstance {} ⟨"vm"⟩ ⟨"image"⟩ ⟨"profile"⟩).2

/-- A start is begun, fails, and is completed later. -/
def lateCompletion : List Call :=
  [.begin_ ⟨"op"⟩ ⟨"vm"⟩ "start" "start:run" "" 0, .fail ⟨"op"⟩ "interrupted_by_recovery",
    .complete ⟨"op"⟩ (.state .running)]

theorem Reaches.calls (h : Reaches (fun _ _ => True) first log) (calls : List Call) :
    Reaches (fun _ _ => True) first (calls.foldl after log) := by
  induction calls generalizing log with
  | nil => exact h
  | cons call rest ih => exact ih (.step first log _ (.call call) h trivial (.call log call))

/-- The failed operation is completed: its status and its result change. -/
theorem not_law : ¬ ∀ first, Law (fun _ _ => True) first := by
  intro h
  let log : Log := { tables := oneInstance, inputs := fun _ => "" }
  have hfailed := (Reaches.refl log).calls (lateCompletion.take 2)
  have hlate := (Reaches.refl ((lateCompletion.take 2).foldl after log)).calls
    (lateCompletion.drop 2)
  have hkept := (h log).settled _ _ rfl hfailed hlate
  revert hkept
  decide +kernel

end OperationLog

end MachineEmu
