import MachineEmu.Api.Devices
import Mathlib.Logic.Relation

/-!
# What attaching and detaching leaves

A failed attach removes what it has added, as far as QEMU carries out what it is told to undo: the
controller of an iso goes when the guest lets it go. A detach that reports the device detached has
removed the device and its backend; one that does not leaves the backend.

* `Runs.gone`, `Runs.absent`, `Runs.stays` — objects over a run.
* `Undone` — the exchanges of a dialog that takes back what it has added.
* `undone_attach` — a failed attach is undone.
* `live_devices` — the theorem about attach and detach.
-/

namespace MachineEmu.Devices

open Lib List

/-! ## Objects over a run -/

section Objects

variable {α : Type} {p : Dialog α} {m m' : Monitor} {exchanges : List Exchange}
  {r : Except Fault α} {o : Object}

theorem Monitor.Idle.absent (h : m.Idle m') (ho : o ∉ m.objects) : o ∉ m'.objects := by
  cases h with
  | release id hid => simp [Monitor.remove, ho]
  | keep id => exact ho
  | lose events hevents => exact ho

theorem Monitor.Idle.stays (h : m.Idle m') (hdevice : ∀ id, o ≠ .device id) (ho : o ∈ m.objects) :
    o ∈ m'.objects := by
  cases h with
  | release id hid => simp [Monitor.remove, ho, hdevice id]
  | keep id => exact ho
  | lose events hevents => exact ho

variable {command : Command}

theorem Monitor.absent_apply (hcreated : command.created ≠ some o)
    (ho : o ∉ m.objects) : o ∉ (m.apply command).objects := by
  unfold Monitor.apply
  split
  · next o' hcreated' =>
    have hne : o ≠ o' := by
      rintro rfl
      exact hcreated hcreated'
    simp [hne, ho]
  · exact ho
  · simp [Monitor.remove, ho]
  · exact ho

theorem Monitor.gone_apply (hcreated : command.created = none)
    (hdeleted : command.deleted = some o) (hdevice : ∀ id, o ≠ .device id) :
    o ∉ (m.apply command).objects := by
  unfold Monitor.apply
  rw [hcreated, hdeleted]
  cases o with
  | device id => exact (hdevice id rfl).elim
  | _ => simp [Monitor.remove]

theorem Monitor.stays_apply (hdeleted : command.deleted ≠ some o)
    (ho : o ∈ m.objects) : o ∈ (m.apply command).objects := by
  unfold Monitor.apply
  split
  · exact mem_cons_of_mem _ ho
  · exact ho
  · next o' hkind _ hdeleted' =>
    have hne : o ≠ o' := by
      rintro rfl
      exact hdeleted hdeleted'
    simp [Monitor.remove, ho, hne]
  · exact ho

/-- What is not there stays away unless it is added. -/
theorem Runs.absent (h : Runs p m exchanges r m')
    (hcreated : ∀ ex ∈ exchanges, ex.command.created ≠ some o) (ho : o ∉ m.objects) :
    o ∉ m'.objects := by
  induction h with
  | done | fail => exact ho
  | idle p m m₁ m₂ exchanges r hidle hruns ih => exact ih hcreated (hidle.absent ho)
  | execute command k m m' reply effect exchanges r hreply hadmits hruns ih =>
    obtain ⟨hfirst, hrest⟩ := forall_mem_cons.1 hcreated
    apply ih hrest
    split
    · exact Monitor.absent_apply hfirst ho
    · exact ho
  | seen id k m m' before after exchanges r hevents hbefore hruns ih => exact ih hcreated ho
  | unseen id k m m' exchanges r hevents hruns ih => exact ih hcreated ho
  | failed id k m m' fault exchanges r hruns ih => exact ih hcreated ho

/-- A backend stays unless it is removed. -/
theorem Runs.stays (h : Runs p m exchanges r m') (hdevice : ∀ id, o ≠ .device id)
    (hdeleted : ∀ ex ∈ exchanges, ex.command.deleted ≠ some o) (ho : o ∈ m.objects) :
    o ∈ m'.objects := by
  induction h with
  | done | fail => exact ho
  | idle p m m₁ m₂ exchanges r hidle hruns ih => exact ih hdeleted (hidle.stays hdevice ho)
  | execute command k m m' reply effect exchanges r hreply hadmits hruns ih =>
    obtain ⟨hfirst, hrest⟩ := forall_mem_cons.1 hdeleted
    apply ih hrest
    split
    · exact Monitor.stays_apply hfirst ho
    · exact ho
  | seen id k m m' before after exchanges r hevents hbefore hruns ih => exact ih hdeleted ho
  | unseen id k m m' exchanges r hevents hruns ih => exact ih hdeleted ho
  | failed id k m m' fault exchanges r hruns ih => exact ih hdeleted ho

/-- A command that succeeds took effect. -/
theorem Runs.effect_of_accepted (h : Runs p m exchanges r m') :
    ∀ ex ∈ exchanges, ex.accepted = true → ex.effect = true := by
  induction h with
  | done | fail => exact nofun
  | execute command k m m' reply effect exchanges r hreply hadmits hruns ih =>
    exact forall_mem_cons.2 ⟨hreply, ih⟩
  | _ => assumption

/-- A backend is gone when it was removed and not added again. -/
theorem Runs.gone (h : Runs p m exchanges r m') (hdevice : ∀ id, o ≠ .device id)
    (front : List Exchange) {back : List Exchange} {ex : Exchange}
    (hexchanges : exchanges = front ++ ex :: back)
    (heffect : ex.effect = true) (hnone : ex.command.created = none)
    (hdeleted : ex.command.deleted = some o)
    (hcreated : ∀ ex ∈ back, ex.command.created ≠ some o) : o ∉ m'.objects := by
  induction h generalizing front with
  | done | fail => simp at hexchanges
  | idle p m m₁ m₂ exchanges r hidle hruns ih => exact ih front hexchanges
  | execute command k m m' reply effect exchanges r hreply hadmits hruns ih =>
    cases front with
    | nil =>
      simp only [nil_append, List.cons.injEq] at hexchanges
      obtain ⟨rfl, rfl⟩ := hexchanges
      dsimp only at heffect hnone hdeleted
      rw [heffect, if_pos rfl] at hruns
      exact hruns.absent hcreated (Monitor.gone_apply hnone hdeleted hdevice)
    | cons first front =>
      simp only [cons_append, List.cons.injEq] at hexchanges
      exact ih front hexchanges.2
  | seen id k m m' before after exchanges r hevents hbefore hruns ih => exact ih front hexchanges
  | unseen id k m m' exchanges r hevents hruns ih => exact ih front hexchanges
  | failed id k m m' fault exchanges r hruns ih => exact ih front hexchanges

end Objects

/-! ## The exchanges of a dialog -/

/-- What happens without a command, over and over. -/
abbrev Idles : Monitor → Monitor → Prop := Relation.ReflTransGen Monitor.Idle

section Inversion

variable {α β : Type} {m m' : Monitor} {exchanges : List Exchange} {r : Except Fault α}

theorem runs_done {a : α} (h : Runs (.done a) m exchanges r m') :
    exchanges = [] ∧ r = .ok a ∧ Idles m m' := by
  generalize hp : Dialog.done a = p at h
  induction h with
  | done => cases hp; exact ⟨rfl, rfl, .refl⟩
  | idle p m m₁ m₂ exchanges r hidle hruns ih =>
    obtain ⟨hexchanges, hr, hidles⟩ := ih hp
    exact ⟨hexchanges, hr, .head hidle hidles⟩
  | _ => cases hp

theorem runs_fail {fault : Fault} (h : Runs (α := α) (.fail fault) m exchanges r m') :
    exchanges = [] ∧ r = .error fault := by
  generalize hp : Dialog.fail fault = p at h
  induction h with
  | fail => cases hp; exact ⟨rfl, rfl⟩
  | idle p m m₁ m₂ exchanges r hidle hruns ih => exact ih hp
  | _ => cases hp

/-- A command is the first exchange. -/
theorem runs_execute {command : Command} {k : Except Fault Json → Dialog α}
    (h : Runs (.execute command k) m exchanges r m') :
    ∃ m₀ reply effect rest, Idles m m₀ ∧ exchanges = ⟨command, reply, effect⟩ :: rest ∧
      (reply.toBool = true → effect = true) ∧ (effect = true → m₀.Admits command) ∧
      Runs (k reply) (if effect then m₀.apply command else m₀) rest r m' := by
  generalize hp : Dialog.execute command k = p at h
  induction h with
  | idle p m m₁ m₂ exchanges r hidle hruns ih =>
    obtain ⟨m₀, reply, effect, rest, hidles, hrest⟩ := ih hp
    exact ⟨m₀, reply, effect, rest, .head hidle hidles, hrest⟩
  | execute command k m m' reply effect exchanges r hreply hadmits hruns =>
    cases hp
    exact ⟨m, reply, effect, exchanges, .refl, rfl, hreply, hadmits, hruns⟩
  | _ => cases hp

/-- A wait is no exchange. -/
theorem runs_wait {id : String} {k : Except Fault Bool → Dialog α}
    (h : Runs (.wait id k) m exchanges r m') :
    ∃ m₀ m₁ result, Idles m m₀ ∧ m₁.objects = m₀.objects ∧ Runs (k result) m₁ exchanges r m' ∧
      (result.toOption = some true → id ∈ m₀.events) := by
  generalize hp : Dialog.wait id k = p at h
  induction h with
  | idle p m m₁ m₂ exchanges r hidle hruns ih =>
    obtain ⟨m₀, m₃, result, hidles, hrest⟩ := ih hp
    exact ⟨m₀, m₃, result, .head hidle hidles, hrest⟩
  | seen id k m m' before after exchanges r hevents hbefore hruns =>
    cases hp
    exact ⟨m, _, .ok true, .refl, by rfl, hruns, fun _ => by simp [hevents]⟩
  | unseen id k m m' exchanges r hevents hruns =>
    cases hp
    exact ⟨m, _, .ok false, .refl, by rfl, hruns, by simp [Except.toOption]⟩
  | failed id k m m' fault exchanges r hruns =>
    cases hp
    exact ⟨m, m, .error fault, .refl, rfl, hruns, by simp [Except.toOption]⟩
  | _ => cases hp

/-- A dialog that goes on with a value it may not have. -/
theorem runs_try {value : Except Fault β} {k : β → Dialog α}
    (h : Runs (.try_ value k) m exchanges r m') :
    (∃ fault, value = .error fault ∧ exchanges = [] ∧ r = .error fault) ∨
      ∃ b, value = .ok b ∧ Runs (k b) m exchanges r m' := by
  cases value with
  | error fault => exact .inl ⟨fault, rfl, runs_fail h⟩
  | ok b => exact .inr ⟨b, rfl, h⟩

/-- Each of the commands is sent. -/
theorem runs_undo {fault : Fault} {commands : List Command} {r : Except Fault Json}
    (h : Runs (.undo fault commands) m exchanges r m') :
    exchanges.map Exchange.command = commands ∧ r = .error fault := by
  induction commands generalizing m exchanges with
  | nil =>
    obtain ⟨rfl, rfl⟩ := runs_fail h
    exact ⟨rfl, rfl⟩
  | cons command commands ih =>
    obtain ⟨m₀, reply, effect, rest, -, rfl, -, -, hruns⟩ := runs_execute h
    obtain ⟨hcommands, hr⟩ := ih hruns
    exact ⟨by rw [map_cons, hcommands], hr⟩

end Inversion

/-! ## What a failed attach takes back -/

/-- QEMU means what it says: a command that fails had no effect. -/
def Told (exchanges : List Exchange) : Prop :=
  ∀ ex ∈ exchanges, ex.accepted = false → ex.effect = false

/-- What was added in front is removed at the end, and the end adds nothing. -/
def Undone (exchanges : List Exchange) : Prop :=
  ∃ front back, exchanges = front ++ back ∧ (∀ ex ∈ back, ex.command.created = none) ∧
    ∀ ex ∈ front, ex.effect = true → ∀ o, ex.command.created = some o →
      ∃ ex' ∈ back, ex'.command.deleted = some o

theorem undone_nil : Undone [] := ⟨[], [], rfl, nofun, nofun⟩

/-- Commands without an effect leave nothing to take back. -/
theorem undone_of_effectless {exchanges : List Exchange}
    (h : ∀ ex ∈ exchanges, ex.effect = false) : Undone exchanges := by
  refine ⟨exchanges, [], by simp, nofun, ?_⟩
  intro ex hex heffect
  rw [h ex hex] at heffect
  cases heffect

theorem undone_of_undo (front : List Exchange) {back : List Exchange} {commands : List Command}
    (hcommands : back.map Exchange.command = commands)
    (hcreated : ∀ command ∈ commands, command.created = none)
    (hdeleted : ∀ ex ∈ front, ex.effect = true → ∀ o, ex.command.created = some o →
      ∃ command ∈ commands, command.deleted = some o) :
    Undone (front ++ back) := by
  refine ⟨front, back, rfl, ?_, ?_⟩
  · intro ex hex
    exact hcreated _ (hcommands ▸ mem_map_of_mem hex)
  · intro ex hex heffect o ho
    obtain ⟨command, hcommand, hdeleted⟩ := hdeleted ex hex heffect o ho
    rw [← hcommands] at hcommand
    obtain ⟨ex', hex', rfl⟩ := mem_map.1 hcommand
    exact ⟨ex', hex', hdeleted⟩

/-! ### The commands -/

section Commands

variable {fields : List (String × Json)} {id : String}

theorem created_deviceAdd (h : (object fields).field "id" = some (.str id)) :
    (deviceAdd fields).created = some (.device id) := by
  simp [Command.created, deviceAdd, Command.argument, h, Json.asStr]

@[simp] theorem created_blockdevAdd (node filename : String) (readOnly : Bool) :
    (blockdevAdd node readOnly filename).created = some (.node node) := by
  simp [Command.created, blockdevAdd, Command.argument, object, Json.setField, Json.asStr]

@[simp] theorem created_netdevAdd (backend : String) :
    (netdevAdd backend).created = some (.netdev backend) := by
  simp [Command.created, netdevAdd, Command.argument, object, Json.setField, Json.asStr]

@[simp] theorem created_chardevAdd (chardev socket : String) :
    (chardevAdd chardev socket).created = some (.chardev chardev) := by
  simp [Command.created, chardevAdd, Command.argument, object, Json.setField, Json.asStr]

@[simp] theorem created_deviceDel (id : String) : (deviceDel id).created = none := rfl

@[simp] theorem created_blockdevDel (node : String) : (blockdevDel node).created = none := rfl

@[simp] theorem created_netdevDel (backend : String) : (netdevDel backend).created = none := rfl

@[simp] theorem created_chardevRemove (chardev : String) :
    (chardevRemove chardev).created = none := rfl

@[simp] theorem deleted_deviceDel (id : String) :
    (deviceDel id).deleted = some (.device id) := by
  simp [Command.deleted, deviceDel, Command.argument, object, Json.setField, Json.asStr]

@[simp] theorem deleted_blockdevDel (node : String) :
    (blockdevDel node).deleted = some (.node node) := by
  simp [Command.deleted, blockdevDel, Command.argument, object, Json.setField, Json.asStr]

@[simp] theorem deleted_netdevDel (backend : String) :
    (netdevDel backend).deleted = some (.netdev backend) := by
  simp [Command.deleted, netdevDel, Command.argument, object, Json.setField, Json.asStr]

@[simp] theorem deleted_chardevRemove (chardev : String) :
    (chardevRemove chardev).deleted = some (.chardev chardev) := by
  simp [Command.deleted, chardevRemove, Command.argument, object, Json.setField, Json.asStr]

end Commands

/-! ### The dialogs -/

section Attach

variable {m m' : Monitor} {exchanges : List Exchange} {fault : Fault}

/-- A single command that fails leaves nothing. -/
theorem undone_execute {command : Command}
    (h : Runs (.execute command .reply) m exchanges (.error fault) m') (htold : Told exchanges) :
    Undone exchanges := by
  obtain ⟨m₀, reply, effect, rest, -, rfl, -, -, hruns⟩ := runs_execute h
  have heffect := htold _ mem_cons_self
  cases reply with
  | ok value =>
    obtain ⟨-, hr, -⟩ := runs_done hruns
    cases hr
  | error fault' =>
    obtain ⟨rfl, -⟩ := runs_fail hruns
    apply undone_of_effectless
    simpa [Exchange.accepted, Except.toBool] using heffect

theorem undone_withBackend {backend device : Command} {undoing : List Command}
    (h : Runs (.withBackend backend device undoing) m exchanges (.error fault) m')
    (htold : Told exchanges) (hundoing : ∀ command ∈ undoing, command.created = none)
    (hbackend : ∀ o, backend.created = some o → ∃ command ∈ undoing, command.deleted = some o) :
    Undone exchanges := by
  obtain ⟨m₀, reply, effect, rest, -, rfl, -, -, hruns⟩ := runs_execute h
  cases reply with
  | error fault' =>
    have heffect := htold _ mem_cons_self
    obtain ⟨rfl, -⟩ := runs_fail hruns
    apply undone_of_effectless
    simpa [Exchange.accepted, Except.toBool] using heffect
  | ok value =>
    obtain ⟨m₁, reply', effect', rest', -, rfl, -, -, hruns⟩ := runs_execute hruns
    have heffect := htold _ (mem_cons_of_mem _ mem_cons_self)
    cases reply' with
    | ok value' =>
      obtain ⟨-, hr, -⟩ := runs_done hruns
      cases hr
    | error fault' =>
      obtain ⟨hcommands, -⟩ := runs_undo hruns
      have hfalse : effect' = false := by
        simpa [Exchange.accepted, Except.toBool] using heffect
      refine undone_of_undo [_, _] hcommands hundoing ?_
      simpa [hfalse] using fun _ => hbackend

variable {request : AttachDevice} {session : DeviceSession} {id : String}

theorem undone_attachUsbImage
    (h : Runs (attachUsbImage session id request) m exchanges (.error fault) m')
    (htold : Told exchanges) : Undone exchanges := by
  obtain ⟨fault', -, rfl, -⟩ | ⟨file, -, h⟩ := runs_try h
  · exact undone_nil
  · obtain ⟨fault', -, rfl, -⟩ | ⟨filename, -, h⟩ := runs_try h
    · exact undone_nil
    · exact undone_withBackend h htold (by simp) (by simp)

theorem undone_attachNetwork (h : Runs (attachNetwork id request) m exchanges (.error fault) m')
    (htold : Told exchanges) : Undone exchanges := by
  unfold attachNetwork at h
  dsimp only at h
  split at h
  · rw [(runs_fail h).1]
    exact undone_nil
  · split at h
    · rw [(runs_fail h).1]
      exact undone_nil
    · obtain ⟨fault', -, rfl, -⟩ | ⟨bus, -, h⟩ := runs_try h
      · exact undone_nil
      · exact undone_withBackend h htold (by simp) (by simp)

theorem undone_attachUsbredir (h : Runs (attachUsbredir session id) m exchanges (.error fault) m')
    (htold : Told exchanges) : Undone exchanges := by
  unfold attachUsbredir at h
  dsimp only at h
  split at h
  · rw [(runs_fail h).1]
    exact undone_nil
  · obtain ⟨fault', -, rfl, -⟩ | ⟨socket, -, h⟩ := runs_try h
    · exact undone_nil
    · exact undone_withBackend h htold (by simp) (by simp)

theorem undone_attachUsbHost (h : Runs (attachUsbHost id request) m exchanges (.error fault) m')
    (htold : Told exchanges) : Undone exchanges := by
  unfold attachUsbHost at h
  split at h
  · rw [(runs_fail h).1]
    exact undone_nil
  · rw [(runs_fail h).1]
    exact undone_nil
  · exact undone_execute h htold

/-- The name of a file that exists is UTF-8. -/
def Media.Utf8 (media : Media) : Prop :=
  ∀ path file, media.canonicalize path = some file → file.path ≠ none

theorem mediaPath_utf8 {media : Media} (hutf8 : media.Utf8) {value : String} {iso : Bool}
    {file : MediaFile} (h : mediaPath media value iso = .ok file) :
    ∃ filename, file.path = some filename := by
  unfold mediaPath at h
  split at h
  · cases h
  · split at h
    · cases h
    · split at h
      · dsimp only at h
        split at h
        · cases h
        · next file' hfile =>
          split at h
          · cases h
            exact Option.ne_none_iff_exists'.1 (hutf8 _ _ hfile)
          · cases h
      · cases h

theorem requestedMedia_utf8 (hutf8 : session.media.Utf8) {iso : Bool} {file : MediaFile}
    (h : requestedMedia session request iso = .ok file) :
    ∃ filename, file.path = some filename := by
  unfold requestedMedia at h
  split at h
  · cases h
  · exact mediaPath_utf8 hutf8 h

/-- A command that fails had no effect. -/
theorem Told.head (htold : Told (⟨command, .error fault, effect⟩ :: exchanges)) :
    effect = false :=
  htold _ mem_cons_self rfl

theorem Told.tail {ex : Exchange} (htold : Told (ex :: exchanges)) : Told exchanges :=
  fun ex hex => htold ex (mem_cons_of_mem _ hex)

theorem undone_attachIso (hutf8 : session.media.Utf8)
    (h : Runs (attachIso session id request) m exchanges (.error fault) m')
    (htold : Told exchanges) : Undone exchanges := by
  obtain ⟨fault', -, rfl, -⟩ | ⟨file, hfile, h⟩ := runs_try h
  · exact undone_nil
  obtain ⟨fault', -, rfl, -⟩ | ⟨bus, -, h⟩ := runs_try h
  · exact undone_nil
  obtain ⟨filename, hfilename⟩ := requestedMedia_utf8 hutf8 hfile
  obtain ⟨m₀, reply, effect, rest, -, rfl, -, -, hruns⟩ := runs_execute h
  have hcontroller : (deviceAdd [("driver", .str "virtio-scsi-pci"),
      ("id", .str (id ++ "-ctl")), ("bus", .str bus)]).created = some (.device (id ++ "-ctl")) :=
    created_deviceAdd (by simp [object, Json.setField])
  cases reply with
  | error fault' =>
    obtain ⟨rfl, -⟩ := runs_fail hruns
    exact undone_of_effectless (by simp [htold.head])
  | ok value =>
    dsimp only at hruns
    rw [hfilename] at hruns
    obtain ⟨m₁, reply', effect', rest', -, rfl, -, -, hruns⟩ := runs_execute hruns
    cases reply' with
    | error fault' =>
      have hfalse := htold.tail.head
      obtain ⟨hcommands, -⟩ := runs_undo hruns
      refine undone_of_undo [_, _] hcommands (by simp) ?_
      simp only [hfalse, hcontroller, forall_mem_cons]
      refine ⟨fun _ o ho => ?_, nofun, nofun⟩
      cases ho
      exact ⟨_, mem_cons_self, deleted_deviceDel _⟩
    | ok value' =>
      obtain ⟨m₂, reply'', effect'', rest'', -, rfl, -, -, hruns⟩ := runs_execute hruns
      cases reply'' with
      | ok value'' =>
        obtain ⟨-, hr, -⟩ := runs_done hruns
        cases hr
      | error fault'' =>
        have hfalse := htold.tail.tail.head
        obtain ⟨hcommands, -⟩ := runs_undo hruns
        refine undone_of_undo [_, _, _] hcommands (by simp) ?_
        simp only [hfalse, hcontroller, created_blockdevAdd, forall_mem_cons]
        refine ⟨fun _ o ho => ?_, fun _ o ho => ?_, nofun, nofun⟩
        · cases ho
          exact ⟨_, mem_cons_of_mem _ mem_cons_self, deleted_deviceDel _⟩
        · cases ho
          exact ⟨_, mem_cons_self, deleted_blockdevDel _⟩

/-- A failed attach takes back what it added, whatever its kind. -/
theorem undone_attachDevice (hutf8 : session.media.Utf8) {kind : String}
    (h : Runs (attachDevice session kind request) m exchanges (.error fault) m')
    (htold : Told exchanges) : Undone exchanges := by
  obtain ⟨fault', -, rfl, -⟩ | ⟨id, -, h⟩ := runs_try h
  · exact undone_nil
  unfold attach at h
  split at h
  · exact undone_attachUsbHost h htold
  · exact undone_attachUsbImage h htold
  · exact undone_attachIso hutf8 h htold
  · exact undone_attachNetwork h htold
  · exact undone_attachUsbredir h htold
  · rw [(runs_fail h).1]
    exact undone_nil

end Attach

/-! ## What is left -/

/-- QEMU has accepted the removal of the object: of a device, it is asked of the guest. -/
def RemovalAccepted (exchanges : List Exchange) (o : Object) : Prop :=
  ∃ ex ∈ exchanges, ex.command.deleted = some o ∧ ex.accepted = true

/-- Whatever a dialog added and took back is gone, or, if it is a device, its removal accepted. -/
theorem Undone.left {α : Type} {p : Dialog α} {m m' : Monitor} {exchanges : List Exchange}
    {r : Except Fault α} (h : Undone exchanges) (hruns : Runs p m exchanges r m')
    (hremoved : ∀ ex ∈ exchanges, ex.command.deleted ≠ none → ex.accepted = true)
    {ex : Exchange} (hex : ex ∈ exchanges) (heffect : ex.effect = true) {o : Object}
    (ho : ex.command.created = some o) :
    o ∉ m'.objects ∨ (∃ id, o = .device id) ∧ RemovalAccepted exchanges o := by
  obtain ⟨front, back, rfl, hback, hfront⟩ := h
  have hexfront : ex ∈ front := by
    refine (mem_append.1 hex).resolve_right fun hmem => ?_
    rw [hback ex hmem] at ho
    cases ho
  obtain ⟨ex', hex', hdeleted⟩ := hfront ex hexfront heffect o ho
  have haccepted := hremoved ex' (mem_append_right _ hex') (by simp [hdeleted])
  by_cases hdevice : ∃ id, o = .device id
  · exact .inr ⟨hdevice, ex', mem_append_right _ hex', hdeleted, haccepted⟩
  · left
    obtain ⟨before, after, rfl⟩ := append_of_mem hex'
    refine hruns.gone (not_exists.1 hdevice) _ (append_assoc front before _).symm ?_
      (hback ex' hex') hdeleted ?_
    · exact hruns.effect_of_accepted ex' (mem_append_right _ hex') haccepted
    · intro ex hmem
      rw [hback ex (by simp [hmem])]
      exact nofun

/-! ## Detach -/

/-- The backend of a device. -/
def backend (kind id : String) : Option Object :=
  match kind with
  | "usb-image" | "iso" => some (.node (id ++ "-node"))
  | "network" => some (.netdev (id ++ "-netdev"))
  | "usbredir" => some (.chardev (id ++ "-char"))
  | _ => none

/-- The backend is what the cleanup removes. -/
theorem cleanup_backend {kind id : String} {command : Option Command}
    (h : cleanup kind id = .ok command) :
    command.bind Command.deleted = backend kind id ∧
      ∀ c ∈ command, c.created = none := by
  unfold cleanup at h
  split at h <;> cases h <;> simp [backend]

theorem backend_ne_device {kind id : String} {o : Object} (h : backend kind id = some o)
    (d : String) : o ≠ .device d := by
  unfold backend at h
  split at h <;> cases h <;> exact nofun

section Detach

variable {m m' : Monitor} {exchanges : List Exchange} {r : Except Fault Bool} {id kind : String}

/-- The commands for the controller of an iso. -/
theorem exchanges_detachController (h : Runs (detachController kind id) m exchanges r m') :
    (∀ ex ∈ exchanges, ex.command = deviceDel (id ++ "-ctl")) ∧
      (kind = "iso" → exchanges ≠ []) ∧ r ≠ .ok false := by
  unfold detachController at h
  split at h
  · obtain ⟨m₀, reply, effect, rest, -, rfl, -, -, hruns⟩ := runs_execute h
    have hrest : rest = [] ∧ r ≠ .ok false := by
      cases reply with
      | error fault =>
        obtain ⟨rfl, rfl, -⟩ := runs_done hruns
        exact ⟨rfl, nofun⟩
      | ok value =>
        obtain ⟨m₁, m₂, result, -, -, hruns, -⟩ := runs_wait hruns
        cases result with
        | error fault =>
          obtain ⟨rfl, rfl⟩ := runs_fail hruns
          exact ⟨rfl, nofun⟩
        | ok seen =>
          obtain ⟨rfl, rfl, -⟩ := runs_done hruns
          exact ⟨rfl, nofun⟩
    obtain ⟨rfl, hr⟩ := hrest
    exact ⟨by simp, nofun, hr⟩
  · next hkind =>
    obtain ⟨rfl, rfl, -⟩ := runs_done h
    exact ⟨nofun, fun h => (hkind h).elim, nofun⟩

/-- An event of the device means that it is gone. -/
def EventsTrue (id : String) (m : Monitor) : Prop := id ∈ m.events → .device id ∉ m.objects

theorem EventsTrue.idle (h : EventsTrue id m) (hidle : m.Idle m') : EventsTrue id m' := by
  cases hidle with
  | release d hd =>
    intro hevent
    by_cases heq : id = d
    · simp [Monitor.remove, heq]
    · have hbefore : id ∈ m.events := by simpa [heq] using hevent
      simp [Monitor.remove, h hbefore]
  | keep d => exact h
  | lose events hevents => exact fun hevent => h (hevents.subset hevent)

theorem EventsTrue.idles (h : EventsTrue id m) (hidles : Idles m m') : EventsTrue id m' := by
  induction hidles with
  | refl => exact h
  | tail _ hidle ih => exact ih.idle hidle

theorem EventsTrue.apply (h : EventsTrue id m) (d : String) :
    EventsTrue id (m.apply (deviceDel d)) := by
  intro hevent
  refine Monitor.absent_apply (by simp) (h ?_)
  simpa [Monitor.apply] using hevent

/-- What a detach has done when it reports the device detached. -/
structure Detached (kind id : String) (exchanges : List Exchange) (m' : Monitor) : Prop where
  device : .device id ∉ m'.objects
  backend : ∀ o, backend kind id = some o → o ∉ m'.objects
  controller : kind = "iso" → ∃ ex ∈ exchanges, ex.command = deviceDel (id ++ "-ctl")

/-- What a detach has done when it reports that the device is still there. -/
structure Pending (id : String) (exchanges : List Exchange) (m m' : Monitor) : Prop where
  asked : RemovalAccepted exchanges (.device id)
  kept : ∀ o ∈ m.objects, (∀ d, o ≠ .device d) → o ∈ m'.objects

/-- A detach, the first or a repeated one, of a device of which no event is in the queue. -/
theorem runs_detach {i : Id} (hevents : i.asStr ∉ m.events)
    (h : Runs (detach i kind) m exchanges r m') :
    (r = .ok true → Detached kind i.asStr exchanges m') ∧
      (r = .ok false → Pending i.asStr exchanges m m') := by
  have hwhole := h
  obtain ⟨m₀, reply, effect, rest, hidles, rfl, hreply, -, hruns⟩ := runs_execute h
  cases reply with
  | error fault =>
    obtain ⟨rfl, rfl⟩ := runs_fail hruns
    exact ⟨nofun, nofun⟩
  | ok value =>
  obtain rfl : effect = true := hreply rfl
  obtain ⟨m₁, m₂, result, hidles', hobjects, hruns, hseen⟩ := runs_wait hruns
  have htrue : EventsTrue i.asStr m₁ := by
    have hstart : EventsTrue i.asStr m := fun hevent => (hevents hevent).elim
    exact ((hstart.idles hidles).apply i.asStr).idles hidles'
  match result, hseen with
  | .error fault, _ =>
    obtain ⟨rfl, rfl⟩ := runs_fail hruns
    exact ⟨nofun, nofun⟩
  | .ok false, _ =>
    obtain ⟨rfl, rfl, -⟩ := runs_done hruns
    refine ⟨nofun, fun _ => ⟨⟨_, mem_cons_self, deleted_deviceDel _, rfl⟩, ?_⟩⟩
    intro o ho hdevice
    refine hwhole.stays hdevice ?_ ho
    simpa using (hdevice i.asStr).symm
  | .ok true, hseen =>
    have hgone : .device i.asStr ∉ m₂.objects := hobjects ▸ htrue (hseen rfl)
    obtain ⟨fault, -, rfl, rfl⟩ | ⟨command, hcommand, hruns⟩ := runs_try hruns
    · exact ⟨nofun, nofun⟩
    obtain ⟨hbackend, hnone⟩ := cleanup_backend hcommand
    cases command with
    | none =>
      obtain ⟨hcontroller, hiso, hr⟩ := exchanges_detachController hruns
      refine ⟨fun _ => ⟨?_, ?_, ?_⟩, fun h => (hr h).elim⟩
      · exact hruns.absent (fun ex hex => by simp [hcontroller ex hex]) hgone
      · intro o ho
        simp [ho] at hbackend
      · intro hkind
        obtain ⟨ex, hex⟩ := exists_mem_of_ne_nil _ (hiso hkind)
        exact ⟨ex, mem_cons_of_mem _ hex, hcontroller ex hex⟩
    | some command =>
      have hwait := hruns
      obtain ⟨m₃, reply', effect', rest', -, rfl, hreply', -, hruns⟩ := runs_execute hruns
      have hcreated : command.created = none := hnone command rfl
      cases reply' with
      | error fault =>
        obtain ⟨rfl, rfl⟩ := runs_fail hruns
        exact ⟨nofun, nofun⟩
      | ok value' =>
      obtain rfl : effect' = true := hreply' rfl
      obtain ⟨hcontroller, hiso, hr⟩ := exchanges_detachController hruns
      refine ⟨fun _ => ⟨?_, ?_, ?_⟩, fun h => (hr h).elim⟩
      · refine hwait.absent ?_ hgone
        rw [forall_mem_cons]
        exact ⟨by simp [hcreated], fun ex hex => by simp [hcontroller ex hex]⟩
      · intro o ho
        have hdeleted : command.deleted = some o := hbackend.trans ho
        exact hwait.gone (backend_ne_device ho) [] rfl rfl hcreated hdeleted
          fun ex hex => by simp [hcontroller ex hex]
      · intro hkind
        obtain ⟨ex, hex⟩ := exists_mem_of_ne_nil _ (hiso hkind)
        exact ⟨ex, mem_cons_of_mem _ (mem_cons_of_mem _ hex), hcontroller ex hex⟩

end Detach

/-! ## Attach and detach -/

/-- When an attach fails, each object it added is gone, or is a device whose removal QEMU has
accepted, provided that commands that fail had no effect and that QEMU carries out the removals.
A detach that reports the device detached has removed it and its backend, and has asked for the
controller of an iso; one that reports it not detached has asked for the device and left all
backends. -/
theorem live_devices (session : DeviceSession) (kind : String) :
    (∀ (request : AttachDevice) (m m' : Monitor) (exchanges : List Exchange) (fault : Fault),
      session.media.Utf8 →
      Runs (attachDevice session kind request) m exchanges (.error fault) m' →
      Told exchanges →
      (∀ ex ∈ exchanges, ex.command.deleted ≠ none → ex.accepted = true) →
      ∀ ex ∈ exchanges, ex.effect = true → ∀ o, ex.command.created = some o →
        o ∉ m'.objects ∨ (∃ id, o = .device id) ∧ RemovalAccepted exchanges o) ∧
    ∀ (i : Id) (m m' : Monitor) (exchanges : List Exchange) (r : Except Fault Bool),
      i.asStr ∉ m.events → Runs (detach i kind) m exchanges r m' →
      (r = .ok true → Detached kind i.asStr exchanges m') ∧
        (r = .ok false → Pending i.asStr exchanges m m') := by
  constructor
  · intro request m m' exchanges fault hutf8 hruns htold hremoved ex hex heffect o ho
    have hundone := undone_attachDevice hutf8 hruns htold
    exact hundone.left hruns hremoved hex heffect ho
  · intro i m m' exchanges r hevents hruns
    exact runs_detach hevents hruns

namespace DeviceExample

def session : DeviceSession where
  media := { root := "/srv", canonicalize := fun path => some ⟨some path, true⟩ }
  usbredirSocket := none

def network : AttachDevice := { deviceId := "me-net-1", bus := some "pcie-root-port-1" }

def iso : AttachDevice := { deviceId := "me-iso-1", path := some "/srv/a.iso" }

def refusal : Fault := .qmp "refused"

def netdev : String := "me-net-1" ++ "-netdev"

def card : Command :=
  deviceAdd [("driver", .str "virtio-net-pci"), ("id", .str "me-net-1"), ("netdev", .str netdev),
    ("bus", .str "pcie-root-port-1")]

theorem attachDevice_network :
    attachDevice session "network" network =
      .withBackend (netdevAdd netdev) card [netdevDel netdev] := by rfl

def controller : String := "me-iso-1" ++ "-ctl"

def node : String := "me-iso-1" ++ "-node"

def scsi : Command :=
  deviceAdd [("driver", .str "virtio-scsi-pci"), ("id", .str controller),
    ("bus", .str "pcie-root-port-iso")]

theorem attachDevice_iso :
    attachDevice session "iso" iso = .execute scsi fun
      | .error fault => .fail fault
      | .ok _ => .execute (blockdevAdd node true "/srv/a.iso") fun
        | .error fault => .undo fault [deviceDel controller]
        | .ok _ => .execute (deviceAdd [("driver", .str "scsi-cd"), ("id", .str "me-iso-1"),
              ("bus", .str (controller ++ ".0")), ("drive", .str node)]) fun
          | .ok value => .done value
          | .error fault => .undo fault [blockdevDel node, deviceDel controller] := by rfl

/-- The monitor after a network card was refused and its backend removed. -/
def afterNetwork : Monitor := (Monitor.apply {} (netdevAdd netdev)).apply (netdevDel netdev)

def networkExchanges : List Exchange :=
  [⟨netdevAdd netdev, .ok .null, true⟩, ⟨card, .error refusal, false⟩,
    ⟨netdevDel netdev, .ok .null, true⟩]

theorem runs_network :
    Runs (attachDevice session "network" network) {} networkExchanges (.error refusal)
      afterNetwork := by
  rw [attachDevice_network]
  refine .execute _ _ _ _ _ _ _ _ (fun _ => rfl) (fun _ => ?_) ?_
  · simp [Monitor.Admits, Command.deleted, netdevAdd]
  refine .execute _ _ _ _ _ _ _ _ nofun nofun ?_
  refine .execute _ _ _ _ _ _ _ _ (fun _ => rfl) (fun _ => ?_) (.fail _ _)
  simp [Monitor.Admits, Monitor.apply]

/-- A monitor with a device and its node. -/
def disk : Monitor where
  objects := [.device "me-usbi-1", .node ("me-usbi-1" ++ "-node")]

def asked : Monitor := disk.apply (deviceDel "me-usbi-1")

def released : Monitor where
  objects := [.node ("me-usbi-1" ++ "-node")]
  events := ["me-usbi-1"]

theorem asked_eq :
    asked = { disk with leaving := ["me-usbi-1"] } := by
  simp [asked, Monitor.apply, disk]

theorem idle_released : asked.Idle released := by
  have hrelease := Monitor.Idle.release (m := asked) "me-usbi-1" (by simp [asked_eq])
  simpa [asked_eq, released, disk, Monitor.remove] using hrelease

theorem admits_disk : disk.Admits (deviceDel "me-usbi-1") := by
  simp [Monitor.Admits, disk]

/-- The guest lets the device go within the wait. -/
theorem runs_timely :
    Runs (detach ⟨"me-usbi-1"⟩ "usb-image") disk
      [⟨deviceDel "me-usbi-1", .ok .null, true⟩,
        ⟨blockdevDel ("me-usbi-1" ++ "-node"), .ok .null, true⟩] (.ok true)
      (Monitor.apply { released with events := [] } (blockdevDel ("me-usbi-1" ++ "-node"))) := by
  refine .execute _ _ _ _ _ _ _ _ (fun _ => rfl) (fun _ => admits_disk) ?_
  refine .idle _ _ _ _ _ _ idle_released ?_
  refine .seen _ _ _ _ [] [] _ _ rfl nofun ?_
  refine .execute _ _ _ _ _ _ _ _ (fun _ => rfl) (fun _ => ?_) (.done _ _)
  simp [Monitor.Admits, released]

/-- The guest lets the device go after the wait. -/
theorem runs_late :
    Runs (detach ⟨"me-usbi-1"⟩ "usb-image") disk
      [⟨deviceDel "me-usbi-1", .ok .null, true⟩] (.ok false) asked := by
  refine .execute _ _ _ _ _ _ _ _ (fun _ => rfl) (fun _ => admits_disk) ?_
  have hquiet : { asked with events := [] } = asked := by simp [asked_eq, disk]
  have hdone : Runs (.done false) { asked with events := [] } [] (.ok false) asked := by
    rw [hquiet]
    exact .done _ _
  have hunseen : "me-usbi-1" ∉ asked.events := by
    rw [asked_eq]
    exact not_mem_nil
  exact .unseen _ _ _ _ _ _ hunseen hdone

/-- The device is gone and its backend is there. -/
def Stuck (m : Monitor) : Prop :=
  .device "me-usbi-1" ∉ m.objects ∧ .node ("me-usbi-1" ++ "-node") ∈ m.objects

/-- From there every detach fails and changes nothing about it. -/
theorem stuck_detach {m m' : Monitor} {exchanges : List Exchange} {r : Except Fault Bool}
    (hstuck : Stuck m) (h : Runs (detach ⟨"me-usbi-1"⟩ "usb-image") m exchanges r m') :
    (∃ fault, r = .error fault) ∧ Stuck m' := by
  have hwhole := h
  obtain ⟨m₀, reply, effect, rest, hidles, rfl, hreply, hadmits, hruns⟩ := runs_execute h
  have habsent : .device "me-usbi-1" ∉ m₀.objects := by
    clear hruns hadmits
    induction hidles with
    | refl => exact hstuck.1
    | tail _ hidle ih => exact hidle.absent ih
  cases reply with
  | ok value => exact (habsent ((hadmits (hreply rfl)).2 _ (deleted_deviceDel _))).elim
  | error fault =>
    obtain ⟨rfl, rfl⟩ := runs_fail hruns
    refine ⟨⟨fault, rfl⟩, hwhole.absent (by simp) hstuck.1, ?_⟩
    exact hwhole.stays nofun (by simp) hstuck.2

/-- The disk of an iso is refused and the guest does not let the controller go. -/
theorem runs_iso :
    Runs (attachDevice session "iso" iso) {}
      [⟨scsi, .ok .null, true⟩, ⟨blockdevAdd node true "/srv/a.iso", .error refusal, false⟩,
        ⟨deviceDel controller, .ok .null, true⟩] (.error refusal)
      ((Monitor.apply {} scsi).apply (deviceDel controller)) := by
  have hscsi : scsi.created = some (.device controller) :=
    created_deviceAdd (by simp [object, Json.setField])
  rw [attachDevice_iso]
  refine .execute _ _ _ _ _ _ _ _ (fun _ => rfl) (fun _ => ?_) ?_
  · simp [Monitor.Admits, Command.deleted, scsi, deviceAdd]
  · refine .execute _ _ _ _ _ _ _ _ nofun nofun ?_
    refine .execute _ _ _ _ _ _ _ _ (fun _ => rfl) (fun _ => ?_) (.fail _ _)
    simp [Monitor.Admits, Monitor.apply, hscsi]

end DeviceExample

open DeviceExample

theorem live_devices_network :
    .netdev netdev ∉ afterNetwork.objects ∧
      Detached "usb-image" "me-usbi-1"
        [⟨deviceDel "me-usbi-1", .ok .null, true⟩,
          ⟨blockdevDel ("me-usbi-1" ++ "-node"), .ok .null, true⟩]
        (Monitor.apply { released with events := [] } (blockdevDel ("me-usbi-1" ++ "-node"))) := by
  constructor
  · have hleft := (live_devices session "network").1 network {} afterNetwork networkExchanges
      refusal (by simp [Media.Utf8, session]) runs_network
      (by simp [Told, networkExchanges, Exchange.accepted, Except.toBool])
      (by simp [networkExchanges, Exchange.accepted, Except.toBool, card, deviceAdd,
        Command.deleted]) _ mem_cons_self rfl (.netdev netdev) (created_netdevAdd netdev)
    exact hleft.resolve_right fun h => by simp at h
  · have hdetach := (live_devices session "usb-image").2 ⟨"me-usbi-1"⟩ disk _ _ _
      (by simp [disk]) runs_timely
    exact hdetach.1 rfl

/-- The controller of a refused iso is still there when attach returns its error; and when the
guest lets a device go after the wait, its backend stays whatever detach is tried. -/
theorem live_devices_residue :
    (∃ exchanges m', Runs (attachDevice session "iso" iso) {} exchanges (.error refusal) m' ∧
      .device controller ∈ m'.objects) ∧
    Runs (detach ⟨"me-usbi-1"⟩ "usb-image") disk
      [⟨deviceDel "me-usbi-1", .ok .null, true⟩] (.ok false) asked ∧
    asked.Idle released ∧ Stuck released ∧
    ∀ m exchanges r m', Stuck m → Runs (detach ⟨"me-usbi-1"⟩ "usb-image") m exchanges r m' →
      (∃ fault, r = .error fault) ∧ Stuck m' := by
  refine ⟨⟨_, _, runs_iso, ?_⟩, runs_late, idle_released, ?_, ?_⟩
  · have hscsi : scsi.created = some (.device controller) :=
      created_deviceAdd (by simp [object, Json.setField])
    simp [Monitor.apply, hscsi]
  · simp [Stuck, released]
  · intro m exchanges r m' hstuck h
    exact stuck_detach hstuck h

end MachineEmu.Devices
