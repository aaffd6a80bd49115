import MachineEmu.Display.Hub

/-!
# What the viewers of a display stream are sent

Subscribing takes the group that the hub has cached and a position right behind it, in one step. So a
viewer that has a key packet to go on from finds the next packet of its group at its position, and one
that has none waits for the next key packet.

* `Decodable` — groups from their key packets on, without a gap.
* `Hub.Good`, `Viewer.Good` — the invariants.
* `Stream.Good.step` — one step keeps them.
* `display_hub` — what every viewer is sent, and what the hub holds.
-/

namespace MachineEmu.Display

open Lib Broadcast List Option

/-! ## Groups -/

def Role.isVideo : Role → Bool
  | .key => true
  | .delta => true
  | _ => false

variable {role : Role}

theorem Role.key_or_delta (h : role.isVideo = true) : role = .key ∨ role = .delta := by
  cases role <;> first | (cases h; done) | exact .inl rfl | exact .inr rfl

/-- The video packets. -/
def video (l : List Packet) : List Packet := l.filter fun p => p.role.isVideo

/-- The packets of a role. -/
def ofRole (role : Role) (p : Packet) : Bool := p.role == role

/-- A key packet and deltas. -/
def IsGroup (seg : List Packet) : Prop :=
  ∃ key deltas, seg = key :: deltas ∧ key.role = .key ∧ ∀ p ∈ deltas, p.role = .delta

/-- Groups, each from its key packet on and as it was published, without a gap. -/
inductive Decodable (log : List Packet) : List Packet → Prop where
  | nil : Decodable log []
  | group {earlier seg : List Packet} (h : Decodable log earlier) (hseg : IsGroup seg)
    (hlog : seg <:+: video log) : Decodable log (earlier ++ seg)

@[simp] theorem video_append (l l' : List Packet) : video (l ++ l') = video l ++ video l' :=
  filter_append ..

theorem IsGroup.concat {seg : List Packet} {p : Packet} (h : IsGroup seg) (hp : p.role = .delta) :
    IsGroup (seg ++ [p]) := by
  obtain ⟨key, deltas, rfl, hkey, hdeltas⟩ := h
  refine ⟨key, deltas ++ [p], rfl, hkey, fun q hq => ?_⟩
  rcases mem_append.1 hq with hq | hq
  · exact hdeltas q hq
  · rw [mem_singleton.1 hq]
    exact hp

theorem IsGroup.singleton {p : Packet} (hp : p.role = .key) : IsGroup [p] :=
  ⟨p, [], rfl, hp, fun _ h => absurd h not_mem_nil⟩

theorem IsGroup.video_eq {seg : List Packet} (h : IsGroup seg) : video seg = seg := by
  obtain ⟨key, deltas, rfl, hkey, hdeltas⟩ := h
  refine filter_eq_self.2 fun p hp => ?_
  rcases mem_cons.1 hp with rfl | hp
  · rw [hkey]
    rfl
  · rw [hdeltas p hp]
    rfl

/-- What was sent first is decodable. -/
theorem Decodable.front {log l l' : List Packet} (h : Decodable log (l ++ l')) :
    Decodable log l := by
  generalize hwhole : l ++ l' = whole at h
  induction h generalizing l l' with
  | nil =>
    rw [(append_eq_nil_iff.1 hwhole).1]
    exact .nil
  | @group earlier seg h hseg hlog ih =>
    rcases append_eq_append_iff.1 hwhole with ⟨middle, rfl, -⟩ | ⟨middle, rfl, rfl⟩
    · exact ih rfl
    · -- a front of the last group
      obtain ⟨key, deltas, hcons, hkey, hdeltas⟩ := hseg
      cases middle with
      | nil =>
        rw [append_nil]
        exact h
      | cons first rest =>
        obtain ⟨rfl, rfl⟩ := List.cons.inj hcons
        refine h.group ⟨first, rest, rfl, hkey, fun p hp => hdeltas p ?_⟩ ?_
        · exact mem_append_left _ hp
        · exact (prefix_append _ _).isInfix.trans hlog

/-- What is published later changes nothing. -/
theorem Decodable.mono {log log' l : List Packet} (h : Decodable log l)
    (hlog : video log <:+: video log') : Decodable log' l := by
  induction h with
  | nil => exact .nil
  | group h hseg hwithin ih => exact ih.group hseg (hwithin.trans hlog)

/-! ## The hub -/

namespace Hub

/-- The cache is the last group as far as it was published, and its size is counted and bounded; the
records are the latest ones. -/
structure Good (hub : Hub) : Prop where
  headed : ∀ p ∈ hub.log, p.Headed
  cached : hub.bootstrap = [] ∨ IsGroup hub.bootstrap ∧ hub.bootstrap <:+ video hub.log
  size : hub.bytes = (hub.bootstrap.map fun p => p.bytes.length).sum
  bound : hub.bytes ≤ maxGopBytes
  audioConfig : hub.audioConfig = lastOf (ofRole .audioConfig) hub.log
  clipboard : hub.clipboard = lastOf (ofRole .clipboard) hub.log
  cursor : hub.cursor = lastOf (ofRole .cursor) hub.log

variable {hub : Hub} {packet : Packet}

theorem Good.reset (h : Good hub) : Good hub.reset where
  headed := h.headed
  cached := .inl rfl
  size := rfl
  bound := Nat.zero_le _
  audioConfig := h.audioConfig
  clipboard := h.clipboard
  cursor := h.cursor

theorem headed_append (h : Good hub) (hp : packet.Headed) :
    ∀ p ∈ hub.log ++ [packet], p.Headed := by
  intro p hmem
  rcases mem_append.1 hmem with hmem | hmem
  · exact h.headed p hmem
  · rw [mem_singleton.1 hmem]
    exact hp

/-- The latest record of a role after a packet. -/
theorem lastOf_concat (role : Role) (log : List Packet) (packet : Packet) :
    lastOf (ofRole role) (log ++ [packet]) =
      if packet.role = role then some packet else lastOf (ofRole role) log := by
  rw [lastOf_append, lastOf_singleton]
  by_cases hrole : packet.role = role <;> simp [ofRole, hrole]

/-- A record is sent to all, and kept when it is of a kind that is kept. -/
theorem Good.record {hub' : Hub} (h : Good hub) (hp : packet.Headed)
    (hvideo : packet.role.isVideo = false) (hlog : hub'.log = hub.log ++ [packet])
    (hbootstrap : hub'.bootstrap = hub.bootstrap) (hbytes : hub'.bytes = hub.bytes)
    (haudio : hub'.audioConfig = if packet.role = .audioConfig then some packet else hub.audioConfig)
    (hclipboard : hub'.clipboard = if packet.role = .clipboard then some packet else hub.clipboard)
    (hcursor : hub'.cursor = if packet.role = .cursor then some packet else hub.cursor) :
    Good hub' where
  headed := by
    rw [hlog]
    exact headed_append h hp
  cached := by
    have hnone : video [packet] = [] := by
      rw [video, filter_singleton, hvideo]
      rfl
    rw [hbootstrap, hlog, video_append, hnone, append_nil]
    exact h.cached
  size := by rw [hbytes, hbootstrap, h.size]
  bound := by rw [hbytes]; exact h.bound
  audioConfig := by rw [haudio, hlog, lastOf_concat, h.audioConfig]
  clipboard := by rw [hclipboard, hlog, lastOf_concat, h.clipboard]
  cursor := by rw [hcursor, hlog, lastOf_concat, h.cursor]

theorem video_singleton (h : packet.role.isVideo = true) : video [packet] = [packet] := by
  rw [video, filter_singleton, h]
  rfl

/-- A video packet is sent to all. -/
theorem Good.image {hub' : Hub} (h : Good hub) (hp : packet.Headed)
    (hvideo : packet.role.isVideo = true) (hlog : hub'.log = hub.log ++ [packet])
    (hcached : hub'.bootstrap = [] ∨
      IsGroup hub'.bootstrap ∧ hub'.bootstrap <:+ video hub.log ++ [packet])
    (hsize : hub'.bytes = (hub'.bootstrap.map fun p => p.bytes.length).sum)
    (hbound : hub'.bytes ≤ maxGopBytes)
    (hrecords : hub'.audioConfig = hub.audioConfig ∧ hub'.clipboard = hub.clipboard ∧
      hub'.cursor = hub.cursor) : Good hub' := by
  have hother : ∀ role : Role, role.isVideo = false →
      lastOf (ofRole role) hub'.log = lastOf (ofRole role) hub.log := by
    intro role hrole
    rw [hlog, lastOf_concat, if_neg]
    intro hsame
    rw [hsame, hrole] at hvideo
    cases hvideo
  constructor
  · rw [hlog]
    exact headed_append h hp
  · rwa [hlog, video_append, video_singleton hvideo]
  · exact hsize
  · exact hbound
  · rw [hrecords.1, h.audioConfig, hother _ rfl]
  · rw [hrecords.2.1, h.clipboard, hother _ rfl]
  · rw [hrecords.2.2, h.cursor, hother _ rfl]

/-- A key packet starts the cache anew; a delta goes behind what is cached. -/
theorem Good.publish {key : Bool} (h : Good hub) (hp : packet.Headed)
    (hrole : packet.role = if key then .key else .delta) : Good (hub.publish packet key) := by
  have hvideo : packet.role.isVideo = true := by
    rw [hrole]
    cases key <;> rfl
  generalize hbase : (if key then hub.reset else hub) = base
  have hgood : Good base := by
    rw [← hbase]
    split
    · exact h.reset
    · exact h
  have hpush : key = true ∨ base.bootstrap ≠ [] →
      IsGroup (base.bootstrap ++ [packet]) ∧
        base.bootstrap ++ [packet] <:+ video base.log ++ [packet] := by
    intro hcache
    cases key with
    | true =>
      rw [if_pos rfl] at hbase hrole
      have hempty : base.bootstrap = [] := by
        rw [← hbase]
        rfl
      rw [hempty, nil_append]
      exact ⟨IsGroup.singleton hrole, suffix_append _ _⟩
    | false =>
      rw [if_neg Bool.false_ne_true] at hrole
      obtain ⟨hseg, hsuffix⟩ :=
        hgood.cached.resolve_left (hcache.resolve_left Bool.false_ne_true)
      obtain ⟨front, hfront⟩ := hsuffix
      exact ⟨hseg.concat hrole, front, by rw [← append_assoc, hfront]⟩
  unfold Hub.publish
  rw [hbase]
  dsimp only
  split
  · next hcache =>
    split
    · exact hgood.image hp hvideo rfl (.inl rfl) rfl (Nat.zero_le _) ⟨rfl, rfl, rfl⟩
    · next hfits =>
      refine hgood.image hp hvideo rfl (.inr (hpush hcache)) ?_ (Nat.not_lt.1 hfits) ⟨rfl, rfl, rfl⟩
      change base.bytes + packet.bytes.length = ((base.bootstrap ++ [packet]).map _).sum
      rw [map_append, sum_append, hgood.size, map_singleton, sum_singleton]
  · next hcache =>
    rw [not_or, not_not] at hcache
    exact hgood.image hp hvideo rfl (.inl hcache.2) hgood.size hgood.bound ⟨rfl, rfl, rfl⟩

/-- Whatever is published goes to the end of the log. -/
theorem log_publish (key : Bool) :
    (hub.publish packet key).log = hub.log ++ [packet] := by
  unfold Hub.publish
  dsimp only
  repeat' split
  all_goals rfl

end Hub

/-! ## The viewers -/

namespace Viewer

/-- The roles of the records of which the latest is kept. -/
def records : List Role := [.audioConfig, .clipboard, .cursor]

/-- What was written and is about to be written is decodable. A viewer that goes on from a key packet
finds the rest of its group at its position. The latest record of each kind is written, about to be
written, or comes later. -/
structure Good (log : List Packet) (v : Viewer) : Prop where
  position : v.next ≤ log.length
  decodable : Decodable log (video (v.sent ++ v.outbox))
  ready : v.ready = true → ∃ earlier seg, video (v.sent ++ v.outbox) = earlier ++ seg ∧
    Decodable log earlier ∧ IsGroup seg ∧ seg ++ video (log.drop v.next) <:+ video log
  latest : ∀ role ∈ records,
    lastOf (ofRole role) (v.sent ++ v.outbox ++ log.drop v.next) = lastOf (ofRole role) log

variable {log : List Packet} {v v' : Viewer} {hub : Hub} {packet : Packet}

/-- A packet that is published comes later. -/
theorem Good.published (h : Good log v) (packet : Packet) : Good (log ++ [packet]) v := by
  have hdrop : (log ++ [packet]).drop v.next = log.drop v.next ++ [packet] :=
    drop_append_of_le_length h.position
  have hlog : video log <:+: video (log ++ [packet]) := by
    rw [video_append]
    exact (prefix_append _ _).isInfix
  constructor
  · rw [length_append]
    exact Nat.le_add_right_of_le h.position
  · exact h.decodable.mono hlog
  · intro hready
    obtain ⟨earlier, seg, hsplit, hearlier, hseg, front, hfront⟩ := h.ready hready
    refine ⟨earlier, seg, hsplit, hearlier.mono hlog, hseg, front, ?_⟩
    rw [hdrop, video_append, video_append, ← hfront]
    simp only [append_assoc]
  · intro role hrole
    rw [hdrop, ← append_assoc, lastOf_append, h.latest role hrole, ← lastOf_append]

/-- Writing takes the packet from one list to the other. -/
theorem Good.write (h : Good log v) (hwrite : v.write = some v') : Good log v' := by
  unfold Viewer.write at hwrite
  split at hwrite
  · cases hwrite
  · next packet outbox houtbox =>
    cases hwrite
    have hsame : v.sent ++ [packet] ++ outbox = v.sent ++ v.outbox := by
      rw [houtbox, append_assoc, singleton_append]
    constructor
    · exact h.position
    · dsimp only
      rw [hsame]
      exact h.decodable
    · dsimp only
      rw [hsame]
      exact h.ready
    · dsimp only
      rw [hsame]
      exact h.latest

theorem starts_iff (h : packet.Headed) (kind : RecordType) :
    starts packet kind = true ↔ packet.role.kind = kind := by
  have hbyte : ∀ kind kind' : RecordType, kind.toByte = kind'.toByte → kind = kind' := by
    intro kind kind'
    cases kind <;> cases kind' <;> decide
  unfold starts
  rw [h, beq_iff_eq, some_inj]
  exact ⟨hbyte _ _, fun h => h ▸ rfl⟩

/-- What a viewer makes of the type of a packet. -/
theorem kinds_eq (h : packet.Headed) :
    ∀ {ready : Bool}, (ready || starts packet .config || starts packet .resize) =
        (ready || packet.role == .key) ∧
      (starts packet .control || starts packet .audioConfig || starts packet .audioData) =
        !packet.role.isVideo := by
  have hstarts : ∀ kind, starts packet kind = decide (packet.role.kind = kind) := by
    intro kind
    rw [Bool.eq_iff_iff, starts_iff h, decide_eq_true_iff]
  intro ready
  simp only [hstarts]
  cases packet.role <;> cases ready <;> decide

theorem isVideo_of_records (h : role ∈ records) : role.isVideo = false := by
  simp only [records, mem_cons, not_mem_nil, or_false] at h
  rcases h with rfl | rfl | rfl <;> rfl

/-- A record that is kept has its role. -/
theorem role_of_lastOf (h : lastOf (ofRole role) log = some packet) :
    packet ∈ log ∧ packet.role = role := by
  have hmem := mem_of_getLast? h
  obtain ⟨hlog, hrole⟩ := mem_filter.1 hmem
  exact ⟨hlog, beq_iff_eq.1 hrole⟩

/-- The latest record of a role among the records that are kept. -/
theorem lastOf_toList {role' : Role} :
    lastOf (ofRole role) (lastOf (ofRole role') log).toList =
      if role' = role then lastOf (ofRole role) log else none := by
  cases hlast : lastOf (ofRole role') log with
  | none =>
    by_cases hsame : role' = role
    · rw [if_pos hsame, ← hsame, hlast]
      rfl
    · rw [if_neg hsame]
      rfl
  | some p =>
    have hrole := (role_of_lastOf hlast).2
    rw [toList_some, lastOf_singleton, ofRole, hrole]
    by_cases hsame : role' = role
    · rw [if_pos hsame, ← hsame, hlast, if_pos (beq_self_eq_true _)]
    · rw [if_neg hsame, if_neg (by simpa using hsame)]

theorem lastOf_group {seg : List Packet} (h : video seg = seg)
    (hrole : role.isVideo = false) : lastOf (ofRole role) seg = none := by
  rw [lastOf, List.getLast?_eq_none_iff, filter_eq_nil_iff]
  intro p hp hofRole
  rw [← h] at hp
  have hvideo := (mem_filter.1 hp).2
  rw [beq_iff_eq.1 hofRole, hrole] at hvideo
  cases hvideo

/-- What a viewer starts with holds the latest records. -/
theorem lastOf_subscribe (hgood : hub.Good) (hrole : role ∈ records) :
    lastOf (ofRole role) hub.subscribe.1 = lastOf (ofRole role) hub.log := by
  have hcache : role.isVideo = false → lastOf (ofRole role) hub.bootstrap = none := by
    intro hother
    rcases hgood.cached with hempty | ⟨hseg, -⟩
    · rw [hempty]
      rfl
    · exact lastOf_group hseg.video_eq hother
  unfold Hub.subscribe
  dsimp only
  rw [hgood.audioConfig, hgood.clipboard, hgood.cursor]
  simp only [lastOf_append, lastOf_toList]
  simp only [records, mem_cons, not_mem_nil, or_false] at hrole
  rcases hrole with rfl | rfl | rfl
  all_goals
    rw [hcache rfl]
    simp

theorem video_records (hgood : hub.Good) :
    video hub.subscribe.1 = hub.bootstrap ∧
      (hub.subscribe.1.any fun p => starts p .config) = !hub.bootstrap.isEmpty := by
  have hrecord : ∀ {role : Role} {o : Option Packet}, role.isVideo = false →
      o = lastOf (ofRole role) hub.log →
      video o.toList = [] ∧ (o.toList.any fun p => starts p .config) = false := by
    intro role o hrole ho
    have hmem : ∀ p ∈ o.toList, p ∈ hub.log ∧ p.role = role := by
      intro p hp
      rw [ho] at hp
      exact role_of_lastOf (mem_toList.1 hp)
    constructor
    · refine filter_eq_nil_iff.2 fun p hp hvideo => ?_
      rw [(hmem p hp).2, hrole] at hvideo
      cases hvideo
    · refine any_eq_false.2 fun p hp hstarts => ?_
      obtain ⟨hlog, hsame⟩ := hmem p hp
      have hkind := (starts_iff (hgood.headed p hlog) _).1 hstarts
      rw [hsame] at hkind
      cases role <;> first | (cases hrole; done) | cases hkind
  obtain ⟨haudio, haudio'⟩ := hrecord rfl hgood.audioConfig
  obtain ⟨hclipboard, hclipboard'⟩ := hrecord rfl hgood.clipboard
  obtain ⟨hcursor, hcursor'⟩ := hrecord rfl hgood.cursor
  unfold Hub.subscribe
  simp only [video_append, haudio, hclipboard, hcursor, any_append, haudio', hclipboard',
    hcursor', append_nil, Bool.or_false]
  rcases hgood.cached with hempty | ⟨hseg, hsuffix⟩
  · rw [hempty]
    exact ⟨rfl, rfl⟩
  · refine ⟨hseg.video_eq, ?_⟩
    obtain ⟨key, deltas, hcons, hkey, -⟩ := hseg
    have hlog : key ∈ hub.log := by
      have hmem : key ∈ video hub.log := hsuffix.mem (by rw [hcons]; exact mem_cons_self)
      exact (mem_filter.1 hmem).1
    have hstarts : starts key .config = true := by
      rw [starts_iff (hgood.headed key hlog), hkey]
      rfl
    rw [hcons, any_cons, hstarts]
    rfl

/-- Subscribing again takes the cached group, or waits for the next key packet. -/
theorem Good.subscribe (hgood : hub.Good) {sent : List Packet}
    (hdecodable : Decodable hub.log (video sent))
    (hlatest : ∀ role ∈ records, lastOf (ofRole role) hub.log = none →
      lastOf (ofRole role) sent = none) : Good hub.log (Viewer.subscribe hub sent) := by
  obtain ⟨hvideo, hready⟩ := video_records hgood
  have hpending : hub.log.drop (Viewer.subscribe hub sent).next = [] :=
    drop_eq_nil_of_le (Nat.le_refl _)
  constructor
  · exact Nat.le_refl _
  · change Decodable hub.log (video (sent ++ hub.subscribe.1))
    rw [video_append, hvideo]
    rcases hgood.cached with hempty | ⟨hseg, hsuffix⟩
    · rw [hempty, append_nil]
      exact hdecodable
    · exact hdecodable.group hseg hsuffix.isInfix
  · intro htrue
    change (hub.subscribe.1.any fun p => starts p .config) = true at htrue
    rw [hready] at htrue
    rcases hgood.cached with hempty | ⟨hseg, hsuffix⟩
    · rw [hempty] at htrue
      cases htrue
    · refine ⟨video sent, hub.bootstrap, ?_, hdecodable, hseg, ?_⟩
      · change video (sent ++ hub.subscribe.1) = _
        rw [video_append, hvideo]
      · rw [hpending]
        exact (append_nil hub.bootstrap).symm ▸ hsuffix
  · intro role hrole
    rw [hpending, append_nil]
    change lastOf _ (sent ++ hub.subscribe.1) = _
    rw [lastOf_append, lastOf_subscribe hgood hrole]
    cases hlog : lastOf (ofRole role) hub.log with
    | none => exact hlatest role hrole hlog
    | some p => rfl

/-- Subscribing again, when all is written. -/
theorem Good.again (h : Good hub.log v) (hgood : hub.Good) (hempty : v.outbox = []) :
    Good hub.log (Viewer.subscribe hub v.sent) := by
  have hsent : v.sent ++ v.outbox = v.sent := by rw [hempty, append_nil]
  refine subscribe hgood (hsent ▸ h.decodable) fun role hrole hnone => ?_
  have hlatest := h.latest role hrole
  rw [hsent, hnone, lastOf_append, or_eq_none_iff] at hlatest
  exact hlatest.2

/-- What the channel has at a position is kept, dropped until the next key packet, or lost. -/
theorem Good.receive (hgood : hub.Good) (h : Good hub.log v) (hempty : v.outbox = [])
    (hreceive : v.receive hub = some v') : Good hub.log v' := by
  unfold Viewer.receive at hreceive
  split at hreceive
  · cases hreceive
  · -- a viewer that has fallen behind starts again
    cases hreceive
    exact h.again hgood hempty
  · next packet hvalue =>
    cases hreceive
    have hdrop := drop_of_value hvalue
    have hmem : packet ∈ hub.log := by
      have hhead : packet ∈ hub.log.drop v.next := by
        rw [hdrop]
        exact mem_cons_self
      exact mem_of_mem_drop hhead
    have hheaded := hgood.headed packet hmem
    have hposition : v.next + 1 ≤ hub.log.length := by
      have hlength := congrArg List.length hdrop
      rw [length_drop, length_cons] at hlength
      omega
    have hdecodable := h.decodable
    have hready := h.ready
    have hlatest := h.latest
    simp only [hempty, hdrop, append_nil] at hdecodable hready hlatest
    obtain ⟨hkey, hindependent⟩ := kinds_eq hheaded
    rw [hkey, hindependent]
    by_cases hvideo : packet.role.isVideo = true
    · have hpacket := Hub.video_singleton hvideo
      have hsplit : video (packet :: hub.log.drop (v.next + 1)) =
          packet :: video (hub.log.drop (v.next + 1)) := by
        rw [← singleton_append, video_append, hpacket]
        rfl
      by_cases hgoes : v.ready = true ∨ packet.role = .key
      · -- the packet goes on with its group, or starts one
        have hready' : (v.ready || packet.role == .key) = true := by
          rw [Bool.or_eq_true, beq_iff_eq]
          exact hgoes
        have hnext : ∃ earlier seg, video (v.sent ++ [packet]) = earlier ++ seg ∧
            Decodable hub.log earlier ∧ IsGroup seg ∧
            seg ++ video (hub.log.drop (v.next + 1)) <:+ video hub.log := by
          rcases Role.key_or_delta hvideo with hrole | hrole
          · refine ⟨video v.sent, [packet], ?_, hdecodable, IsGroup.singleton hrole, ?_⟩
            · rw [video_append, hpacket]
            · rw [singleton_append, ← hsplit, ← hdrop]
              exact (drop_suffix _ _).filter _
          · have hwas : v.ready = true := hgoes.resolve_right (by rw [hrole]; exact nofun)
            obtain ⟨earlier, seg, hsent, hearlier, hseg, hsuffix⟩ := hready hwas
            refine ⟨earlier, seg ++ [packet], ?_, hearlier, hseg.concat hrole, ?_⟩
            · rw [video_append, hsent, hpacket, append_assoc]
            · rwa [append_assoc, singleton_append, ← hsplit]
        rw [hready', Bool.true_or, if_pos rfl]
        obtain ⟨earlier, seg, hsent, hearlier, hseg, hsuffix⟩ := hnext
        constructor
        · exact hposition
        · dsimp only
          rw [hsent]
          exact hearlier.group hseg ((prefix_append _ _).isInfix.trans hsuffix.isInfix)
        · exact fun _ => ⟨earlier, seg, hsent, hearlier, hseg, hsuffix⟩
        · intro role hrole
          dsimp only
          rw [append_assoc, singleton_append]
          exact hlatest role hrole
      · -- a delta that the viewer cannot use
        rw [not_or, Bool.not_eq_true] at hgoes
        have hready' : (v.ready || packet.role == .key) = false := by
          rw [hgoes.1, Bool.false_or, beq_eq_false_iff_ne]
          exact hgoes.2
        rw [hready', hvideo, Bool.not_true, Bool.or_false, if_neg Bool.false_ne_true]
        constructor
        · exact hposition
        · dsimp only
          rwa [append_nil]
        · exact nofun
        · intro role hrole
          dsimp only
          rw [append_nil, ← hlatest role hrole, ← singleton_append, lastOf_append,
            lastOf_append, lastOf_append, lastOf_group hpacket (isVideo_of_records hrole)]
          simp
    · rw [Bool.not_eq_true] at hvideo
      have hpacket : video [packet] = [] := by
        rw [video, filter_singleton, hvideo]
        rfl
      have hrole : packet.role ≠ .key := by
        intro hsame
        rw [hsame] at hvideo
        cases hvideo
      have hready' : (v.ready || packet.role == .key) = v.ready := by
        rw [beq_eq_false_iff_ne.2 hrole, Bool.or_false]
      have hsplit : video (packet :: hub.log.drop (v.next + 1)) =
          video (hub.log.drop (v.next + 1)) := by
        rw [← singleton_append, video_append, hpacket]
        rfl
      rw [hready', hvideo, Bool.not_false, Bool.or_true, if_pos rfl]
      constructor
      · exact hposition
      · dsimp only
        rwa [video_append, hpacket, append_nil]
      · intro hwas
        obtain ⟨earlier, seg, hsent, hearlier, hseg, hsuffix⟩ := hready hwas
        refine ⟨earlier, seg, ?_, hearlier, hseg, ?_⟩
        · dsimp only
          rw [video_append, hpacket, append_nil, hsent]
        · rwa [← hsplit]
      · intro role hrole
        dsimp only
        rw [append_assoc, singleton_append]
        exact hlatest role hrole

/-- A viewer has written all that was published. -/
def CaughtUp (hub : Hub) (v : Viewer) : Prop := v.outbox = [] ∧ v.next = hub.log.length

end Viewer

/-! ## The stream -/

namespace Stream

/-- The hub and its viewers are in order. -/
structure Good (w : Stream) : Prop where
  hub : w.hub.Good
  viewers : ∀ viewer v, w.viewers viewer = some v → v.Good w.hub.log

variable {w w' : Stream}

/-- After a packet the viewers are where they were. -/
theorem Good.emit {packet : Packet} {hub : Hub} {restarted : Bool} (h : Good w)
    (hhub : packet.role = role → packet.Headed → hub.Good) (hlog : hub.log = w.hub.log ++ [packet])
    (hstep : ({ w with restarted } : Stream).emit packet role hub = some w') : Good w' := by
  unfold Stream.emit at hstep
  split at hstep
  · next hpacket =>
    cases hstep
    refine ⟨hhub hpacket.1 hpacket.2, fun viewer v hv => ?_⟩
    dsimp only
    rw [hlog]
    exact (h.viewers viewer v hv).published packet
  · cases hstep

variable {viewer : Nat}

/-- A viewer goes on, and the others stay. -/
theorem Good.withViewer {f : Viewer → Option Viewer} (h : Good w)
    (hf : ∀ v v', v.Good w.hub.log → f v = some v' → v'.Good w.hub.log)
    (hstep : w.withViewer viewer f = some w') : Good w' := by
  obtain ⟨v, hv, hstep⟩ := bind_eq_some_iff.1 hstep
  obtain ⟨next, hnext, hstep⟩ := bind_eq_some_iff.1 hstep
  cases hstep
  refine ⟨h.hub, fun other u hu => ?_⟩
  dsimp only at hu
  rw [Function.update_apply] at hu
  split at hu
  · cases hu
    exact hf v next (h.viewers viewer v hv) hnext
  · exact h.viewers other u hu

/-- One step keeps the invariants. -/
theorem Good.step {op : Op} (h : Good w) (hstep : w.step op = some w') : Good w' := by
  cases op with
  | publish packet key =>
    simp only [Stream.step] at hstep
    split at hstep
    · cases hstep
    · exact h.emit (fun hrole hheaded => h.hub.publish hheaded hrole) (Hub.log_publish key) hstep
  | reset =>
    cases hstep
    exact ⟨h.hub.reset, h.viewers⟩
  | publishAudio packet =>
    have hhub : packet.role = .audio → packet.Headed → (w.hub.publishAudio packet).Good :=
      fun hrole hheaded => h.hub.record hheaded (by rw [hrole]; rfl) rfl rfl rfl
        (by rw [hrole]; rfl) (by rw [hrole]; rfl) (by rw [hrole]; rfl)
    exact h.emit hhub rfl hstep
  | publishAudioConfig packet =>
    have hhub : packet.role = .audioConfig → packet.Headed → (w.hub.publishAudioConfig packet).Good :=
      fun hrole hheaded => h.hub.record hheaded (by rw [hrole]; rfl) rfl rfl rfl
        (by rw [hrole]; rfl) (by rw [hrole]; rfl) (by rw [hrole]; rfl)
    exact h.emit hhub rfl hstep
  | publishClipboard packet =>
    have hhub : packet.role = .clipboard → packet.Headed → (w.hub.publishClipboard packet).Good :=
      fun hrole hheaded => h.hub.record hheaded (by rw [hrole]; rfl) rfl rfl rfl
        (by rw [hrole]; rfl) (by rw [hrole]; rfl) (by rw [hrole]; rfl)
    exact h.emit hhub rfl hstep
  | publishCursor packet =>
    have hhub : packet.role = .cursor → packet.Headed → (w.hub.publishCursor packet).Good :=
      fun hrole hheaded => h.hub.record hheaded (by rw [hrole]; rfl) rfl rfl rfl
        (by rw [hrole]; rfl) (by rw [hrole]; rfl) (by rw [hrole]; rfl)
    exact h.emit hhub rfl hstep
  | connect viewer =>
    simp only [Stream.step] at hstep
    split at hstep
    · cases hstep
    · cases hstep
      refine ⟨h.hub, fun other v hv => ?_⟩
      dsimp only at hv
      rw [Function.update_apply] at hv
      split at hv
      · cases hv
        exact .subscribe h.hub .nil fun _ _ _ => rfl
      · exact h.viewers other v hv
  | write viewer => exact h.withViewer (fun _ _ hv hwrite => hv.write hwrite) hstep
  | receive viewer =>
    refine h.withViewer (fun v v' hv hreceive => ?_) hstep
    split at hreceive
    · next hempty => exact .receive h.hub hv hempty hreceive
    · cases hreceive
  | requestIdr viewer =>
    refine h.withViewer (fun v v' hv hrequest => ?_) hstep
    split at hrequest
    · next hempty =>
      cases hrequest
      exact hv.again h.hub hempty
    · cases hrequest
  | disconnect viewer =>
    cases hstep
    refine ⟨h.hub, fun other v hv => ?_⟩
    dsimp only at hv
    rw [Function.update_apply] at hv
    split at hv
    · cases hv
    · exact h.viewers other v hv

theorem Good.of_reachable (h : Reachable w) : Good w := by
  induction h with
  | start =>
    refine ⟨?_, fun _ _ hv => nomatch hv⟩
    constructor
    · exact fun _ hp => absurd hp not_mem_nil
    · exact .inl rfl
    · rfl
    · exact Nat.zero_le _
    · rfl
    · rfl
    · rfl
  | step h hstep ih => exact ih.step hstep

theorem Reachable.steps {ops : List Op} (h : Reachable w) (hsteps : w.steps ops = some w') :
    Reachable w' := by
  induction ops generalizing w with
  | nil =>
    cases hsteps
    exact h
  | cons op ops ih =>
    obtain ⟨next, hnext, hrest⟩ := bind_eq_some_iff.1 hsteps
    exact ih (h.step hnext) hrest

/-! ### Catching up -/

/-- A run of one viewer: it writes and receives, and the hub stays as it is. -/
def Follows (viewer : Nat) (w w' : Stream) (v' : Viewer) : Prop :=
  ∃ ops, (∀ op ∈ ops, op = .write viewer ∨ op = .receive viewer) ∧ w.steps ops = some w' ∧
    w'.hub = w.hub ∧ w'.viewers viewer = some v'

theorem steps_append {w' w'' : Stream} {ops ops' : List Op} (h : w.steps ops = some w')
    (h' : w'.steps ops' = some w'') : w.steps (ops ++ ops') = some w'' := by
  induction ops generalizing w with
  | nil =>
    cases h
    exact h'
  | cons op ops ih =>
    obtain ⟨next, hnext, hrest⟩ := bind_eq_some_iff.1 h
    rw [cons_append, steps, hnext, bind_some]
    exact ih hrest

theorem Follows.trans {w' w'' : Stream} {v' v'' : Viewer}
    (h : Follows viewer w w' v') (h' : Follows viewer w' w'' v'') : Follows viewer w w'' v'' := by
  obtain ⟨ops, hops, hsteps, hhub, -⟩ := h
  obtain ⟨ops', hops', hsteps', hhub', hv''⟩ := h'
  refine ⟨ops ++ ops', fun op hop => ?_, steps_append hsteps hsteps', hhub'.trans hhub, hv''⟩
  exact (mem_append.1 hop).elim (hops op) (hops' op)

/-- A step of a viewer. -/
theorem follows_of_step {op : Op} {f : Viewer → Option Viewer}
    {v v' : Viewer} (hop : op = .write viewer ∨ op = .receive viewer)
    (hstep : w.step op = w.withViewer viewer f) (hv : w.viewers viewer = some v)
    (hf : f v = some v') : ∃ w', Follows viewer w w' v' := by
  have hw' : w.step op =
      some { w with viewers := Function.update w.viewers viewer (some v') } := by
    rw [hstep, withViewer, hv]
    change (f v >>= _) = _
    rw [hf]
    rfl
  refine ⟨{ w with viewers := Function.update w.viewers viewer (some v') }, [op],
    fun o ho => ?_, ?_, rfl, Function.update_self ..⟩
  · rw [mem_singleton.1 ho]
    exact hop
  · rw [steps, hw']
    rfl

/-- A viewer can write what it has. -/
theorem exists_written {v : Viewer} (hv : w.viewers viewer = some v) :
    ∃ w' v', Follows viewer w w' v' ∧ v'.outbox = [] ∧ v'.next = v.next := by
  induction hlength : v.outbox.length generalizing w v with
  | zero =>
    refine ⟨w, v, ⟨[], nofun, rfl, rfl, hv⟩, length_eq_zero_iff.1 hlength, rfl⟩
  | succ n ih =>
    obtain ⟨packet, outbox, houtbox⟩ := exists_cons_of_length_eq_add_one hlength
    have hwrite : v.write = some { v with outbox, sent := v.sent ++ [packet] } := by
      rw [Viewer.write, houtbox]
    obtain ⟨w₁, hfollows⟩ := follows_of_step (.inl rfl) rfl hv hwrite
    obtain ⟨-, -, -, -, hv₁⟩ := id hfollows
    have hshort : outbox.length = n := by
      rw [houtbox] at hlength
      exact Nat.succ_injective hlength
    obtain ⟨w', v', hrest, hempty, hnext⟩ := ih hv₁ hshort
    exact ⟨w', v', hfollows.trans hrest, hempty, hnext⟩

/-- A viewer can catch up. -/
theorem exists_caughtUp {v : Viewer}
    (hv : w.viewers viewer = some v) (hnext : v.next ≤ w.hub.log.length) :
    ∃ w' v', Follows viewer w w' v' ∧ v'.CaughtUp w'.hub := by
  induction hpending : w.hub.log.length - v.next using Nat.strong_induction_on
    generalizing w v with
  | h pending ih =>
    obtain ⟨w₁, v₁, hwritten, hempty, hnext₁⟩ := exists_written hv
    obtain ⟨-, -, -, hhub₁, hv₁⟩ := id hwritten
    have hposition : v₁.next ≤ w₁.hub.log.length := by rwa [hhub₁, hnext₁]
    rcases Nat.eq_or_lt_of_le hposition with hend | hless
    · exact ⟨w₁, v₁, hwritten, hempty, hend⟩
    · -- it receives, and its position moves on
      obtain ⟨v₂, hreceive, hmoved⟩ : ∃ v₂, v₁.receive w₁.hub = some v₂ ∧ v₁.next < v₂.next ∧
          v₂.next ≤ w₁.hub.log.length := by
        unfold Viewer.receive
        split
        · next hnothing =>
          have hdrop := drop_of_empty hnothing
          rw [drop_eq_nil_iff] at hdrop
          omega
        · exact ⟨_, rfl, hless, Nat.le_refl _⟩
        · exact ⟨_, rfl, Nat.lt_succ_self _, hless⟩
      have hstep : (if v₁.outbox = [] then v₁.receive w₁.hub else none) = some v₂ := by
        rw [if_pos hempty, hreceive]
      obtain ⟨w₂, hreceived⟩ := follows_of_step (f := fun v =>
        if v.outbox = [] then v.receive w₁.hub else none) (.inr rfl) rfl hv₁ hstep
      obtain ⟨-, -, -, hhub₂, hv₂⟩ := id hreceived
      have hlast : v₂.next ≤ w₂.hub.log.length := by
        rw [hhub₂]
        exact hmoved.2
      have hshorter : w₂.hub.log.length - v₂.next < pending := by
        rw [hhub₂, hhub₁] at *
        omega
      obtain ⟨w', v', hrest, hcaught⟩ := ih _ hshorter hv₂ hlast rfl
      exact ⟨w', v', (hwritten.trans hreceived).trans hrest, hcaught⟩

end Stream

/-- In every run each viewer is sent groups from their key packets on, without a gap; the latest
records of each kind have reached every viewer that has caught up, and each viewer can catch up on
its own; and the hub counts the bytes of its cache and keeps them bounded. -/
theorem display_hub (w : Stream) (h : w.Reachable) :
    (∀ viewer v, w.viewers viewer = some v → Decodable w.hub.log (video v.sent)) ∧
    (∀ viewer v, w.viewers viewer = some v → v.CaughtUp w.hub → ∀ role ∈ Viewer.records,
      lastOf (ofRole role) v.sent = lastOf (ofRole role) w.hub.log) ∧
    (∀ viewer v, w.viewers viewer = some v →
      ∃ w' v', Stream.Follows viewer w w' v' ∧ v'.CaughtUp w'.hub) ∧
    w.hub.bytes = (w.hub.bootstrap.map fun p => p.bytes.length).sum ∧
    w.hub.bytes ≤ maxGopBytes := by
  have hgood := Stream.Good.of_reachable h
  refine ⟨fun viewer v hv => ?_, fun viewer v hv hcaught role hrole => ?_, fun viewer v hv => ?_,
    hgood.hub.size, hgood.hub.bound⟩
  · have hdecodable := (hgood.viewers viewer v hv).decodable
    rw [video_append] at hdecodable
    exact hdecodable.front
  · have hlatest := (hgood.viewers viewer v hv).latest role hrole
    rwa [hcaught.1, hcaught.2, drop_length, append_nil, append_nil] at hlatest
  · exact Stream.exists_caughtUp hv (hgood.viewers viewer v hv).position

/-- A viewer that connects within a group. -/
theorem display_hub_of_group : ∃ (w : Stream) (v : Viewer), w.viewers 0 = some v ∧
    v.sent = [⟨[0, 1], .key⟩, ⟨[2, 10], .delta⟩, ⟨[4, 9], .cursor⟩, ⟨[2, 11], .delta⟩] ∧
    Decodable w.hub.log (video v.sent) := by
  have hsteps : Stream.steps {} [.publish ⟨[0, 1], .key⟩ true, .publish ⟨[2, 10], .delta⟩ false,
      .publishCursor ⟨[4, 9], .cursor⟩, .connect 0, .publish ⟨[2, 11], .delta⟩ false, .write 0,
      .write 0, .write 0, .receive 0, .write 0] = some _ := rfl
  exact ⟨_, _, rfl, rfl, (display_hub _ (Stream.Reachable.start.steps hsteps)).1 0 _ rfl⟩

/-- In every run the cache of the hub is in order. -/
theorem cache_of_reachable {w : Stream} (h : w.Reachable) : w.hub.Good :=
  (Stream.Good.of_reachable h).hub

theorem cache_of_group : ∃ w : Stream, w.hub.bootstrap = [⟨[0, 1], .key⟩] ∧ w.hub.Good := by
  have hsteps : Stream.steps {} [.publish ⟨[0, 1], .key⟩ true] = some _ := rfl
  exact ⟨_, rfl, cache_of_reachable (Stream.Reachable.start.steps hsteps)⟩

end MachineEmu.Display
