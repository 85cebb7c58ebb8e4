import Moon.Lib.Except
import Moon.ProcessCommand

/-! # Variables that are set and removed -/

namespace Moon.Proofs

open Moon.Lib List Function ProcessCommand EnvState

variable {e : Environment} {cs : List EnvCall} {key : String} {s : EnvState}

def callValue : EnvCall → Option String
  | .set _ value => some value
  | .remove _ => none

def lastCall (calls : List EnvCall) (key : String) : Option EnvCall :=
  (calls.filter (fun call => call.key = key)).getLast?

/-- What the last call left, or else what was inherited. -/
def expectedValue (environment : Environment) (calls : List EnvCall) (key : String) :
    Option String :=
  match lastCall calls key with
  | none => environment key
  | some call => callValue call

lemma lastCall_append (cs : List EnvCall) (c : EnvCall) (key : String) :
    lastCall (cs ++ [c]) key = if c.key = key then some c else lastCall cs key := by
  unfold lastCall
  rw [filter_append]
  split_ifs with hk
  · simp [hk]
  · simp [hk]

lemma lastCall_spec {c : EnvCall} (h : lastCall cs key = some c) : c ∈ cs ∧ c.key = key := by
  have hm := mem_of_getLast? h
  simpa using hm

lemma lastCall_eq_none (h : lastCall cs key = none) : ∀ c ∈ cs, c.key ≠ key := by
  intro c hc hk
  have hn := getLast?_eq_none_iff.mp h
  have hm : c ∈ cs.filter (fun c => c.key = key) := by simp [hc, hk]
  rw [hn] at hm
  exact not_mem_nil hm

structure Tracked (environment : Environment) (calls : List EnvCall) (key : String)
    (state : EnvState) : Prop where
  added : state.bag.added key = (lastCall calls key).bind callValue
  inherited : state.bag.inherited key = if .remove key ∈ calls then none else environment key
  removed : state.bag.removed key = true ↔ .remove key ∈ calls
  process : (isPropagated key = true → ∀ value, .set key value ∉ calls) →
    state.process key = environment key
  propagated : isPropagated key = true → ∀ value, .set key value ∈ calls → state.process key ≠ none

section

variable (h : Tracked e cs key s)
include h

lemma Tracked.other {c : EnvCall} (hk : c.key ≠ key) : Tracked e (cs ++ [c]) key (c.apply s) := by
  have hm : ∀ o : EnvCall, o.key = key → (o ∈ cs ++ [c] ↔ o ∈ cs) := by
    intro o ho
    have hn : o ≠ c := by
      rintro rfl
      exact hk ho
    simp [hn]
  have hl : lastCall (cs ++ [c]) key = lastCall cs key := by
    rw [lastCall_append, if_neg hk]
  have hr := hm (.remove key) rfl
  have hs := fun v => hm (.set key v) rfl
  have hsm : (c.apply s).bag.added key = s.bag.added key ∧
      (c.apply s).bag.inherited key = s.bag.inherited key ∧
      (c.apply s).bag.removed key = s.bag.removed key ∧
      (c.apply s).process key = s.process key := by
    cases c with
    | set o v =>
      have hn : key ≠ o := fun heq => hk heq.symm
      refine ⟨update_of_ne hn _ _, rfl, rfl, ?_⟩
      simp only [EnvCall.apply, EnvState.set]
      split_ifs
      · exact update_of_ne hn _ _
      · rfl
    | remove o =>
      have hn : key ≠ o := fun heq => hk heq.symm
      exact ⟨update_of_ne hn _ _, update_of_ne hn _ _, update_of_ne hn _ _, rfl⟩
  obtain ⟨ha, hi, hrmv, hp⟩ := hsm
  exact {
    added := by rw [ha, hl, h.added]
    inherited := by simp only [hi, h.inherited, hr]
    removed := by rw [hrmv, h.removed, hr]
    process := fun hnv => hp.trans
      (h.process (fun hk v hv => hnv hk v ((hs v).mpr hv)))
    propagated := fun hpr v hv => hp ▸
      h.propagated hpr v ((hs v).mp hv) }

lemma Tracked.set (v : String) : Tracked e (cs ++ [.set key v]) key (s.set key v) where
  added := by
    rw [lastCall_append, if_pos (by rfl)]
    exact update_self ..
  inherited := by
    rw [show (s.set key v).bag.inherited key = _ from h.inherited]
    simp
  removed := h.removed.trans (by simp)
  process hn := by
    have hk : isPropagated key = false := by
      by_contra hk
      exact hn (by simpa using hk) v (by simp)
    simp only [EnvState.set, hk, Bool.false_eq_true, if_false]
    exact h.process (by simp [hk])
  propagated hk _ _ := by
    simp [EnvState.set, hk]

lemma Tracked.remove : Tracked e (cs ++ [.remove key]) key (s.remove key) where
  added := by
    rw [lastCall_append, if_pos (by rfl)]
    exact update_self ..
  inherited := by
    simp [EnvState.remove]
  removed := by
    simp [EnvState.remove]
  process hn := h.process (fun hk v hv => hn hk v (by simp [hv]))
  propagated hk v hv := h.propagated hk v (by simpa using hv)

lemma Tracked.apply (c : EnvCall) : Tracked e (cs ++ [c]) key (c.apply s) := by
  by_cases hk : c.key = key
  · cases c with
    | set o v =>
      cases hk
      exact h.set v
    | remove o =>
      cases hk
      exact h.remove
  · exact h.other hk

end

lemma tracked_run (e : Environment) (cs : List EnvCall) (key : String) :
    Tracked e cs key ((init e).run cs) := by
  induction cs using reverseRecOn with
  | nil =>
    exact ⟨rfl, by simp [run, init], by simp [run, init],
      fun _ => rfl, fun _ _ h => absurd h not_mem_nil⟩
  | append_singleton cs c ih =>
    unfold run at ih ⊢
    rw [foldl_concat]
    exact ih.apply c

/-- The command itself does not set the variable. -/
structure LeavesAlone (host : CommandHost) (command : ProcessCommand) (key : String) : Prop where
  env : command.containsEnv key = false
  pwd : command.cwd ≠ none → key ≠ "PWD"
  path : command.paths ≠ [] → key ≠ "PATH"
  bashEnv : command.wrappingShell host = some .bash → key ≠ "BASH_ENV"

/-- All ways of reading the variable give this value. -/
structure ReadsAs (state : EnvState) (key : String) (value : Option String) : Prop where
  has : state.has key = value.isSome
  get : (state.get key).1 = value
  list : ∀ listed, listed ∈ state.list key ↔ value = some listed
  child : ∀ (host : CommandHost) (command : ProcessCommand), LeavesAlone host command key →
    ∀ child, command.childEnvironment host state = .ok child → child key = value

lemma applyEnv_of_ne {e : String × EnvBehavior} (hn : key ≠ e.1) (ch : Environment) :
    applyEnv s ch e key = ch key := by
  unfold applyEnv
  cases e.2 with
  | set v => exact update_of_ne hn _ _
  | setIfMissing v =>
    dsimp only
    split_ifs
    · rfl
    · exact update_of_ne hn _ _
  | unset => exact update_of_ne hn _ _

lemma foldl_applyEnv (s : EnvState) {es : List (String × EnvBehavior)}
    (ch : Environment) (h : es.any (fun e => e.1 == key) = false) :
    es.foldl (applyEnv s) ch key = ch key := by
  induction es generalizing ch with
  | nil => rfl
  | cons e es ih =>
    rw [any_cons, Bool.or_eq_false_iff] at h
    have hn : key ≠ e.1 := by
      rintro rfl
      simp at h
    rw [foldl_cons, ih _ h.2, applyEnv_of_ne hn]

section

variable {host : CommandHost} {c : ProcessCommand}

lemma explicitEnvironment_apply (h : LeavesAlone host c key) :
    c.explicitEnvironment host s key =
      if s.bag.removed key = true then none
      else (s.bag.added key).or (s.process key) := by
  have hs : c.startEnvironment host s key = s.process key := by
    unfold startEnvironment
    split_ifs with hb
    · exact update_of_ne (h.bashEnv hb.1) _ _
    · rfl
  have hex := foldl_applyEnv s (c.bagEnvironment host s) h.env
  unfold bagEnvironment at hex
  rw [hs] at hex
  unfold explicitEnvironment
  cases hc : c.cwd with
  | none => exact hex
  | some cwd => exact (update_of_ne (h.pwd (by simp [hc])) _ _).trans hex

lemma childEnvironment_apply (h : LeavesAlone host c key) {ch : Environment}
    (hc : c.childEnvironment host s = .ok ch) :
    ch key = if s.bag.removed key = true then none
      else (s.bag.added key).or (s.process key) := by
  rw [← explicitEnvironment_apply h]
  unfold childEnvironment at hc
  dsimp only at hc
  split_ifs at hc with hp
  · obtain ⟨path, -, hr⟩ := bind_eq_ok hc
    cases hr
    have hne : c.paths ≠ [] := by
      intro hn
      simp [hn] at hp
    exact update_of_ne (h.path hne) _ _
  · cases hc
    rfl

end

lemma get_fst (s : EnvState) (key : String) :
    (s.get key).1 = ((s.bag.added key).or (s.bag.inherited key)).or (s.process key) := by
  unfold EnvState.get
  cases (s.bag.added key).or (s.bag.inherited key) with
  | some v => rfl
  | none =>
    cases s.process key with
    | some v => rfl
    | none => rfl

def plainCommand : ProcessCommand where
  exe := .binary { value := "env" }
  env := []
  env_nodup := nodup_nil
  shell := none

def plainHost : CommandHost where
  defaultShell := .bash
  splitPaths _ := []
  joinPaths _ := .ok ""

lemma leavesAlone_plain (key : String) : LeavesAlone plainHost plainCommand key :=
  ⟨rfl, fun h => absurd rfl h, fun h => absurd rfl h, fun h => by cases h⟩

lemma readsAs_iff {v : Option String} :
    ReadsAs s key v ↔
      ((s.bag.inherited key).isSome || (s.bag.added key).isSome) = v.isSome ∧
      ((s.bag.added key).or (s.bag.inherited key)).or (s.process key) = v ∧
      (∀ l, s.bag.inherited key = some l ∨ s.bag.added key = some l ↔ v = some l) ∧
      (if s.bag.removed key = true then none
        else (s.bag.added key).or (s.process key)) = v := by
  have hl : ∀ l, l ∈ s.list key ↔
      s.bag.inherited key = some l ∨ s.bag.added key = some l := by
    intro l
    simp [list]
  constructor
  · intro h
    refine ⟨h.has, get_fst s key ▸ h.get, fun l => (hl l).symm.trans (h.list l), ?_⟩
    have hp := h.child plainHost plainCommand (leavesAlone_plain key) _ rfl
    rwa [childEnvironment_apply (leavesAlone_plain key) rfl] at hp
  · rintro ⟨hh, hg, hlsd, hc⟩
    exact ⟨hh, (get_fst s key).trans hg, fun l => (hl l).trans (hlsd l), fun host c ha child h =>
        (childEnvironment_apply ha h).trans hc⟩

/-- The variable is not set once it was removed, nor to another value than it was inherited with,
and not removed from an environment that the process has it in. -/
def CallsAgree (environment : Environment) (calls : List EnvCall) (key : String) : Prop :=
  match lastCall calls key with
  | none => True
  | some (.set _ value) => .remove key ∉ calls ∧
      (environment key = none ∨ environment key = some value)
  | some (.remove _) => environment key = none ∧
      (isPropagated key = true → ∀ value, .set key value ∉ calls)

/-- After any calls, everything that can be read of a variable is what the last call on it has
left, or what was inherited, if and only if the calls agree with what the process has. -/
theorem reads_last_call_iff (environment : Environment) (calls : List EnvCall) (key : String) :
    ReadsAs ((EnvState.init environment).run calls) key (expectedValue environment calls key) ↔
      CallsAgree environment calls key := by
  have h := tracked_run environment calls key
  rw [readsAs_iff, h.added, h.inherited]
  simp only [h.removed]
  unfold expectedValue CallsAgree
  cases hl : lastCall calls key with
  | none =>
    have hn := lastCall_eq_none hl
    have hr : .remove key ∉ calls := fun hm => hn _ hm rfl
    have hs : ∀ v, .set key v ∉ calls := fun v hm => hn _ hm rfl
    have hp := h.process (fun _ => hs)
    simp [hr, hp]
  | some c =>
    obtain ⟨hm, hk⟩ := lastCall_spec hl
    cases c with
    | set o v =>
      obtain rfl : o = key := hk
      by_cases hr : .remove o ∈ calls
      · simp [hr, callValue]
      · cases environment o with
        | none => simp [hr, callValue]
        | some inherited => simp [hr, callValue, eq_comm]
    | remove o =>
      obtain rfl : o = key := hk
      simp only [hm, callValue, Option.bind_some, if_true, Option.none_or, Option.isSome_none,
        Bool.or_false, reduceCtorEq, or_false, implies_true, true_and, and_true]
      refine ⟨fun hp => ?_, fun ⟨hn, hnv⟩ => (h.process hnv).trans hn⟩
      have hnv : isPropagated o → ∀ v, .set o v ∉ calls :=
        fun hpr v hs => h.propagated hpr v hs hp
      exact ⟨(h.process hnv).symm.trans hp, hnv⟩

/-- A variable that is set after it was removed is not given to a child, one that is removed is
read from the process, and the value that a process was started with is still listed. -/
theorem node_env_read_apart :
    let started : EnvState := .init (fun key => if key = "NODE_ENV" then some "test" else none)
    let r := started.run [.remove "NODE_ENV", .set "NODE_ENV" "production"]
    ((plainCommand.childEnvironment plainHost r).toOption.bind (· "NODE_ENV") = none ∧
        (r.get "NODE_ENV").1 = some "production") ∧
      ((started.run [.remove "NODE_ENV"]).has "NODE_ENV" = false ∧
        ((started.run [.remove "NODE_ENV"]).get "NODE_ENV").1 = some "test") ∧
      (started.run [.set "NODE_ENV" "production"]).list "NODE_ENV" = ["test", "production"] := by
  decide

end Moon.Proofs
