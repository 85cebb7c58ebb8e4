import Moon.DaemonConnector
import Moon.Lib.Run

/-!
# Killing the daemon

A stop request kills the process that has the pid it has read.
-/

namespace Moon.Proofs

open Moon.Lib Function Option DaemonWorld

variable {w world' : DaemonWorld} {id : Nat} {pid : Pid} {r old : ProcessRole} {p : OsProcess}

/-- The steps between taking the lock and giving it up. -/
def OwnsLock : ProcessRole → Prop
  | .server .owning | .server .serving | .server .stopping | .stop .cleaning _ => True
  | _ => False

def readPid : StopPhase → Option Pid
  | .locking info | .waiting info _ => info
  | .killing pid => some pid
  | .checking | .reading _ | .cleaning => none

def PidOfOwner (world : DaemonWorld) : ProcessRole → Prop
  | .stop phase (some o) => o < world.born ∧
      ∀ process, world.processes o = some process → readPid phase = some process.pid
  | _ => True

structure ProcessOk (world : DaemonWorld) (id : Nat) (process : OsProcess) : Prop where
  born : id < world.born
  owns : OwnsLock process.role ↔ world.daemonLock = some id
  recorded : process.role = .server .serving → world.stateFile = some process.pid
  pidOfOwner : PidOfOwner world process.role

/-- Processes have distinct pids, and hold only locks that they took. -/
structure WorldOk (world : DaemonWorld) : Prop where
  processes : ∀ id process, world.processes id = some process → ProcessOk world id process
  pids : ∀ id process, world.processes id = some process →
    ∀ id' p', world.processes id' = some p' → process.pid = p'.pid → id = id'
  holder : ∀ id, world.daemonLock = some id → world.processes id ≠ none

lemma worldOk_empty : WorldOk {} := ⟨nofun, nofun, nofun⟩

lemma exists_of_roleOf (h : w.roleOf id = some r) : ∃ pid, w.processes id = some ⟨pid, r⟩ := by
  obtain ⟨⟨pid, _⟩, hp, rfl⟩ := map_eq_some_iff.mp h
  exact ⟨pid, hp⟩

lemma WorldOk.processWith_eq (h : WorldOk w) (hi : w.processes id = some p) :
    w.processWith p.pid = some id := by
  cases hf : w.processWith p.pid with
  | none =>
    have hb := (h.processes id p hi).born
    have hn := List.find?_eq_none.mp hf id (List.mem_range.mpr hb)
    simp [hi] at hn
  | some o =>
    have hp := List.find?_some hf
    cases ho : w.processes o with
    | none => simp [ho] at hp
    | some p' =>
      rw [ho] at hp
      rw [h.pids o _ ho id p hi (eq_of_beq hp)]

lemma processWith_setRole : (w.setRole id r).processWith pid = w.processWith pid := by
  have ha : ∀ i, ((w.setRole id r).processes i).any (fun p => p.pid == pid) =
      (w.processes i).any (fun p => p.pid == pid) := by
    intro i
    simp only [setRole, update_apply]
    split
    · rename_i heq
      rw [heq, any_map]
    · rfl
  unfold processWith
  simp only [ha]
  rfl

lemma WorldOk.lock_ne (h : WorldOk w) (hi : w.processes id = some p)
    (ho : OwnsLock p.role) {o : Nat} (hn : o ≠ id) : w.daemonLock ≠ some o := by
  rw [(h.processes id p hi).owns.mp ho]
  exact fun heq => hn (some.inj heq).symm

structure KeepsPids (world world' : DaemonWorld) : Prop where
  born : world.born ≤ world'.born
  pid : ∀ id < world.born, ∀ p', world'.processes id = some p' →
    ∃ process, world.processes id = some process ∧ process.pid = p'.pid

lemma PidOfOwner.mono (hk : KeepsPids w world') (h : PidOfOwner w r) : PidOfOwner world' r := by
  unfold PidOfOwner at h ⊢
  split
  · obtain ⟨hb, hr⟩ := h
    refine ⟨hb.trans_le hk.born, fun p' hp' => ?_⟩
    obtain ⟨p, hpr, hp⟩ := hk.pid _ hb p' hp'
    rw [hr p hpr, hp]
  · trivial

lemma PidOfOwner.next {ph p' : StopPhase} {o : Option Nat}
    (h : PidOfOwner w (.stop ph o)) (hr : readPid p' = readPid ph) : PidOfOwner w (.stop p' o) := by
  cases o with
  | none => trivial
  | some o => exact ⟨h.1, fun p hp => hr.trans (h.2 p hp)⟩

/-- A step changes one process, and the lock and the file at most where it is about this
process. -/
structure Changes (world world' : DaemonWorld) (id : Nat) (new : Option OsProcess) : Prop where
  processes : world'.processes = update world.processes id new
  keeps : KeepsPids world world'
  lock : ∀ other, other ≠ id → (world'.daemonLock = some other ↔ world.daemonLock = some other)
  file : ∀ other, other ≠ id → world.daemonLock = some other → world'.stateFile = world.stateFile

lemma WorldOk.changes {new : Option OsProcess} (h : WorldOk w)
    (hc : Changes w world' id new) (hn : new = none → world'.daemonLock ≠ some id)
    (hnw : ∀ p, new = some p → ProcessOk world' id p ∧ ∀ o p', o ≠ id → w.processes o = some p' →
        p'.pid ≠ p.pid) : WorldOk world' := by
  have hsl : world'.processes id = new := by rw [hc.processes, update_self]
  have ho : ∀ o, o ≠ id → world'.processes o = w.processes o := by
    intro o hne
    rw [hc.processes, update_of_ne hne]
  refine ⟨fun i a ha => ?_, fun i a ha j b hb hp => ?_, fun i hi => ?_⟩
  · by_cases hne : i = id
    · subst hne
      exact (hnw a (hsl.symm.trans ha)).1
    · rw [ho i hne] at ha
      have hok := h.processes i a ha
      refine ⟨hok.born.trans_le hc.keeps.born, hok.owns.trans (hc.lock i hne).symm,
        fun hs => ?_, hok.pidOfOwner.mono hc.keeps⟩
      have hl : w.daemonLock = some i := hok.owns.mp (by rw [hs]; trivial)
      rw [hc.file i hne hl, hok.recorded hs]
  · by_cases hi : i = id <;> by_cases hj : j = id
    · rw [hi, hj]
    · subst hi
      rw [ho j hj] at hb
      exact absurd hp.symm ((hnw a (hsl.symm.trans ha)).2 j b hj hb)
    · subst hj
      rw [ho i hi] at ha
      exact absurd hp ((hnw b (hsl.symm.trans hb)).2 i a hi ha)
    · rw [ho i hi] at ha
      rw [ho j hj] at hb
      exact h.pids i a ha j b hb hp
  · by_cases hne : i = id
    · subst hne
      rw [hsl]
      exact fun hnw => hn hnw hi
    · rw [ho i hne]
      exact h.holder i ((hc.lock i hne).mp hi)

lemma filter_ne_eq_some_iff {l : Option Nat} {o : Nat} (hn : o ≠ id) :
    l.filter (· ≠ id) = some o ↔ l = some o := by
  rw [filter_eq_some_iff]
  simp [hn]

lemma release_ne (lock : Option Nat) : lock.filter (· ≠ id) ≠ some id := by
  intro hl
  have hf := (filter_eq_some_iff.mp hl).2
  simp at hf

lemma WorldOk.terminate (h : WorldOk w) (id : Nat) : WorldOk (w.terminate id) := by
  have hk : KeepsPids w (w.terminate id) := by
    refine ⟨le_rfl, fun i _ p' hp' => ?_⟩
    simp only [DaemonWorld.terminate, update_apply] at hp'
    split at hp'
    · cases hp'
    · exact ⟨p', hp', rfl⟩
  have hc : Changes w (w.terminate id) id none :=
    ⟨rfl, hk, fun _ hn => filter_ne_eq_some_iff hn, fun _ _ _ => rfl⟩
  exact h.changes hc (fun _ => release_ne w.daemonLock) nofun

lemma WorldOk.create (h : WorldOk w) (hp : w.processWith pid = none)
    (how : ¬ OwnsLock r) (hr : PidOfOwner w r) : WorldOk (w.create pid r) := by
  have hf : w.processes w.born = none := by
    cases hb : w.processes w.born with
    | none => rfl
    | some p => exact absurd (h.processes _ p hb).born (lt_irrefl _)
  have hk : KeepsPids w (w.create pid r) := by
    refine ⟨Nat.le_succ _, fun i hi p' hp' => ?_⟩
    simp only [DaemonWorld.create, update_of_ne hi.ne] at hp'
    exact ⟨p', hp', rfl⟩
  have hc : Changes w (w.create pid r) w.born (some ⟨pid, r⟩) :=
    ⟨rfl, hk, fun _ _ => Iff.rfl, fun _ _ _ => rfl⟩
  refine h.changes hc nofun ?_
  rintro _ ⟨⟩
  refine ⟨⟨Nat.lt_succ_self _, ⟨fun hrole => absurd hrole how, fun hl => ?_⟩, ?_, hr.mono hk⟩, ?_⟩
  · exact absurd hf (h.holder _ hl)
  · rintro rfl
    exact absurd trivial how
  · rintro o p' - ho rfl
    rw [h.processWith_eq ho] at hp
    cases hp

lemma WorldOk.update (h : WorldOk w) (hi : w.processes id = some ⟨pid, old⟩)
    (hpr : world'.processes = (w.setRole id r).processes) (hb : world'.born = w.born)
    (hl : ∀ o, o ≠ id → (world'.daemonLock = some o ↔ w.daemonLock = some o))
    (hf : ∀ o, o ≠ id → w.daemonLock = some o → world'.stateFile = w.stateFile)
    (how : OwnsLock r ↔ world'.daemonLock = some id)
    (hr : r = .server .serving → world'.stateFile = some pid) (hrd : PidOfOwner w r) :
    WorldOk world' := by
  have hs : world'.processes = Function.update w.processes id (some ⟨pid, r⟩) := by
    rw [hpr]
    simp only [setRole, hi, map_some]
  have hk : KeepsPids w world' := by
    refine ⟨hb.ge, fun i _ p' hp' => ?_⟩
    rw [hs] at hp'
    exact forall_update_some (P := fun i a => ∃ p, w.processes i = some p ∧ p.pid = a.pid)
      (fun _ a ha => ⟨a, ha, rfl⟩) ⟨_, hi, rfl⟩ i p' hp'
  refine h.changes ⟨hs, hk, hl, hf⟩ nofun ?_
  rintro _ ⟨⟩
  refine ⟨⟨?_, how, hr, hrd.mono hk⟩, fun o p' hn ho hp => ?_⟩
  · rw [hb]
    exact (h.processes id _ hi).born
  · exact hn (h.pids o p' ho id _ hi hp)

section

variable (h : WorldOk w) (hrole : w.roleOf id = some old)
include h hrole

lemma WorldOk.setRole (ho : OwnsLock r ↔ OwnsLock old) (hs : r ≠ .server .serving)
    (hr : PidOfOwner w r) : WorldOk (w.setRole id r) := by
  obtain ⟨pid, hi⟩ := exists_of_roleOf hrole
  exact h.update hi rfl rfl (fun _ _ => Iff.rfl) (fun _ _ _ => rfl)
    (ho.trans (h.processes id _ hi).owns) (fun heq => absurd heq hs) hr

lemma WorldOk.finish : WorldOk (w.finish id) := by
  obtain ⟨pid, hi⟩ := exists_of_roleOf hrole
  exact h.update hi rfl rfl (fun _ hn => filter_ne_eq_some_iff hn) (fun _ _ _ => rfl)
    ⟨nofun, fun hl => absurd hl (release_ne w.daemonLock)⟩ nofun trivial

lemma WorldOk.acquire (hn : w.daemonLock = none) (ho : OwnsLock r)
    (hs : r ≠ .server .serving) (hr : PidOfOwner w r) :
    WorldOk { w.setRole id r with daemonLock := some id } := by
  obtain ⟨pid, hi⟩ := exists_of_roleOf hrole
  refine h.update hi rfl rfl (fun o hne => ?_) (fun _ _ _ => rfl)
    (iff_of_true ho rfl) (fun heq => absurd heq hs) hr
  rw [hn]
  simpa using hne.symm

lemma WorldOk.pidOfOwner : PidOfOwner w old := by
  obtain ⟨pid, hi⟩ := exists_of_roleOf hrole
  exact (h.processes id _ hi).pidOfOwner

end

lemma WorldOk.check {ru : Bool} (h : WorldOk w)
    (hs : w.check id ru = some world') : WorldOk world' := by
  unfold DaemonWorld.check at hs
  split at hs
  · cases hs
  split at hs <;> cases hs
  · rename_i hrole
    split_ifs <;> exact h.setRole hrole (by simp [OwnsLock]) (by simp) trivial
  · rename_i hrole
    split_ifs
    · exact h.finish hrole
    · exact h.setRole hrole Iff.rfl nofun trivial
  · rename_i hrole
    exact h.setRole hrole Iff.rfl nofun trivial

lemma WorldOk.readState (h : WorldOk w) (hs : w.readState id = some world') : WorldOk world' := by
  unfold DaemonWorld.readState at hs
  split at hs
  · rename_i hrole
    split_ifs at hs <;> cases hs
    · exact h.setRole hrole Iff.rfl nofun trivial
    · refine h.setRole hrole Iff.rfl nofun ?_
      cases ho : w.recordedOwner with
      | none => trivial
      | some o =>
        obtain ⟨-, hsr⟩ := filter_eq_some_iff.mp ho
        obtain ⟨pid, hi⟩ := exists_of_roleOf (eq_of_beq hsr)
        refine ⟨(h.processes o _ hi).born, fun p hp => ?_⟩
        cases hi.symm.trans hp
        exact (h.processes o _ hi).recorded rfl
  · cases hs

lemma WorldOk.afterSpawnLock {a : Bool} (h : WorldOk w)
    (hs : w.afterSpawnLock id a = some world') : WorldOk world' := by
  unfold DaemonWorld.afterSpawnLock at hs
  split at hs <;> cases hs
  · rename_i hrole
    exact h.setRole hrole Iff.rfl nofun trivial
  · rename_i hrole
    exact h.setRole hrole Iff.rfl nofun ((h.pidOfOwner hrole).next rfl)

lemma WorldOk.lockTimeout (h : WorldOk w) (hs : w.lockTimeout id = some world') :
    WorldOk world' := by
  unfold DaemonWorld.lockTimeout at hs
  split at hs <;> cases hs
  · rename_i hrole
    exact h.setRole hrole Iff.rfl nofun ((h.pidOfOwner hrole).next rfl)
  · rename_i hrole
    exact h.setRole hrole Iff.rfl nofun trivial
  · rename_i hrole
    exact h.finish hrole

lemma WorldOk.kill {pe : Bool} (h : WorldOk w)
    (hs : w.kill id pe = some world') : WorldOk world' := by
  unfold DaemonWorld.kill at hs
  split at hs
  · rename_i pid _ hrole
    have hw : WorldOk (w.setRole id (.stop (.waiting (some pid) true) none)) :=
      h.setRole hrole Iff.rfl nofun trivial
    dsimp only at hs
    split at hs <;> cases hs
    · split_ifs
      · exact hw.terminate _
      · exact h.finish hrole
    · exact hw
  · cases hs

lemma worldOk_step (w : DaemonWorld) (e : DaemonEvent) (world' : DaemonWorld)
    (h : WorldOk w) (hs : w.step e = some world') : WorldOk world' := by
  cases e <;> simp only [step] at hs
  case check id running => exact h.check hs
  case readState id => exact h.readState hs
  case kill id permitted => exact h.kill hs
  case acquireSpawnLock id =>
    obtain ⟨locked, hlck, hs⟩ := bind_eq_some_iff.mp hs
    split_ifs at hs
    cases hs
    have hok := h.afterSpawnLock hlck
    exact { hok with processes := fun i p hi => { hok.processes i p hi with } }
  case spawnLockTimeout id =>
    split_ifs at hs
    exact h.afterSpawnLock hs
  case lockTimeout id =>
    split_ifs at hs
    exact h.lockTimeout hs
  case spawn pid =>
    split_ifs at hs with hp
    cases hs
    exact h.create (not_isSome_iff_eq_none.mp hp) nofun trivial
  case exit id =>
    split_ifs at hs
    cases hs
    exact h.terminate id
  case startDaemon id =>
    split_ifs at hs with hrole
    cases hs
    exact h.setRole hrole Iff.rfl nofun trivial
  case stopDaemon id =>
    split_ifs at hs with hrole
    cases hs
    exact h.setRole hrole Iff.rfl nofun trivial
  case ready id =>
    split_ifs at hs with hrole
    cases hs
    exact h.finish hrole
  case spawnServer id pid =>
    split_ifs at hs with hc
    cases hs
    have hok : WorldOk (w.setRole id (.start .waiting)) := h.setRole hc.1 Iff.rfl nofun trivial
    exact hok.create (processWith_setRole.trans hc.2) nofun trivial
  case tryOwn id =>
    split_ifs at hs with hrole hn <;> cases hs
    · exact h.acquire hrole hn trivial nofun trivial
    · exact h.terminate id
  case writeState id =>
    split at hs <;> cases hs
    rename_i pid hid
    have hl := (h.processes id _ hid).owns.mp trivial
    exact h.update hid rfl rfl (fun _ _ => Iff.rfl)
      (fun _ hne ho => absurd ho (h.lock_ne hid trivial hne))
      (iff_of_true trivial hl) (fun _ => rfl) trivial
  case cleanup id =>
    split at hs <;> cases hs
    · rename_i hrole
      obtain ⟨pid, hid⟩ := exists_of_roleOf hrole
      have hl := (h.processes id _ hid).owns.mp trivial
      exact h.update hid rfl rfl (fun _ _ => Iff.rfl)
        (fun _ hne ho => absurd ho (h.lock_ne hid trivial hne))
        (iff_of_true trivial hl) nofun trivial
    · rename_i hrole
      obtain ⟨pid, hid⟩ := exists_of_roleOf hrole
      exact h.update hid rfl rfl (fun _ hne => filter_ne_eq_some_iff hne)
        (fun _ hne ho => absurd ho (h.lock_ne hid trivial hne))
        ⟨nofun, fun hl => absurd hl (release_ne w.daemonLock)⟩ nofun trivial
  case acquireLock id =>
    split at hs
    · rename_i hrole
      split_ifs at hs with hn
      cases hs
      exact h.acquire hrole hn trivial nofun trivial
    · cases hs

/-- Whatever happens, a stop request that is about to kill sends the kill to the process that holds
the lock, if this is the daemon that had recorded itself when the state was read. -/
theorem stop_daemon_kills_lock_holder (events : List DaemonEvent) (world : DaemonWorld)
    (hrun : exec step {} events = some world) (id : Nat) (pid : Pid) (owner : Nat)
    (hrole : world.roleOf id = some (.stop (.killing pid) (some owner)))
    (hheld : world.daemonLock = some owner) : world.processWith pid = world.daemonLock := by
  have ho : WorldOk world := exec_invariant worldOk_step worldOk_empty hrun
  cases hp : world.processes owner with
  | none => exact absurd hp (ho.holder owner hheld)
  | some p =>
    have hpd : some pid = some p.pid := (ho.pidOfOwner hrole).2 p hp
    cases hpd
    rw [ho.processWith_eq hp, hheld]

def hungDaemon : List DaemonEvent :=
  [.spawn 10, .startDaemon 0, .check 0 false, .acquireSpawnLock 0, .check 0 false,
    .spawnServer 0 20, .tryOwn 1, .writeState 1, .ready 0, .stopDaemon 0, .check 0 true,
    .readState 0, .acquireSpawnLock 0, .lockTimeout 0]

theorem hung_daemon_killed :
    ∃ world, exec step {} hungDaemon = some world ∧
      world.roleOf 0 = some (.stop (.killing 20) (some 1)) ∧
      world.processWith 20 = world.daemonLock :=
  ⟨_, rfl, rfl, stop_daemon_kills_lock_holder hungDaemon _ rfl 0 20 1 rfl rfl⟩

/-- Whatever happens, a daemon that serves is found by the pid in the state file and holds the lock,
and no other process serves or cleans up beside it. -/
theorem serving_daemon_is_recorded (events : List DaemonEvent) (world : DaemonWorld)
    (hrun : exec step {} events = some world) (id : Nat)
    (hserving : world.roleOf id = some (.server .serving)) :
    world.stateFile.bind world.processWith = some id ∧ world.daemonLock = some id ∧
      ∀ other role, world.roleOf other = some role → OwnsLock role → other = id := by
  have ho : WorldOk world := exec_invariant worldOk_step worldOk_empty hrun
  obtain ⟨pid, hp⟩ := exists_of_roleOf hserving
  have hok := ho.processes id _ hp
  refine ⟨?_, hok.owns.mp trivial, ?_⟩
  · rw [hok.recorded rfl]
    exact ho.processWith_eq hp
  · intro other role hrole hown
    obtain ⟨pid', hp'⟩ := exists_of_roleOf hrole
    by_contra hne
    exact ho.lock_ne hp trivial hne ((ho.processes other _ hp').owns.mp hown)

theorem hung_daemon_recorded : ∃ world, exec step {} hungDaemon = some world ∧
    world.stateFile.bind world.processWith = some 1 ∧ world.daemonLock = some 1 :=
  have h := serving_daemon_is_recorded hungDaemon _ rfl 1 rfl
  ⟨_, rfl, h.1, h.2.1⟩

/-- A daemon crashes, and an editor gets its pid. The next daemon has the lock, but has not recorded
itself yet, when a stop request reads the state. -/
def staleState : List DaemonEvent :=
  [.spawn 10, .startDaemon 0, .check 0 false, .acquireSpawnLock 0, .check 0 false,
    .spawnServer 0 20, .tryOwn 1, .writeState 1, .ready 0, .exit 1, .spawn 20,
    .startDaemon 0, .check 0 false, .acquireSpawnLock 0, .check 0 false, .spawnServer 0 30,
    .tryOwn 3, .spawn 40, .stopDaemon 4, .check 4 false, .readState 4, .writeState 3, .ready 0,
    .acquireSpawnLock 4, .lockTimeout 4]

/-- The stop request kills the editor, while the daemon holds the lock. -/
theorem editor_killed_for_stale_state :
    ∃ world world', exec step {} staleState = some world ∧
      world.roleOf 4 = some (.stop (.killing 20) none) ∧ world.daemonLock = some 3 ∧
      world.processWith 20 = some 2 ∧ world.roleOf 2 = some .idle ∧
      world.step (.kill 4 true) = some world' ∧ world'.processes 2 = none ∧
      world'.daemonLock = some 3 :=
  ⟨_, _, rfl, rfl, rfl, rfl, rfl, rfl, rfl, rfl⟩

end Moon.Proofs
