import Moon.PooledTasks

/-! # Outputs are applied in order -/

namespace Moon.Proofs

open Moon.Lib List PooledTasks

section

variable {I O S : Type} {concurrency : Nat} {onInput : I → Except String (Except String O)}
  {onOutput : S → O → Except String S} {start : S} {fs : List (Except String O)}
  {p : PooledTasks I O S}

variable (onOutput start fs) in
/-- The futures were given out in order. Each is running, kept as an output that is not the
next one, or applied. -/
structure PoolOk (pool : PooledTasks I O S) : Prop where
  spawned : pool.nextIndex = fs.length
  running : ∀ entry ∈ pool.set, fs[entry.1]? = some entry.2
  kept : ∀ index output, pool.completed.lookup index = some output → fs[index]? = some (.ok output)
  covered : ∀ index, pool.flushIndex ≤ index → index < fs.length →
    (∃ entry ∈ pool.set, entry.1 = index) ∨ (pool.completed.lookup index).isSome
  flushed : ∃ (outputs : List O) (rest : List (Except String O)), fs = outputs.map .ok ++ rest ∧
    outputs.length = pool.flushIndex ∧ outputs.foldlM onOutput start = .ok pool.state

variable (onInput onOutput start fs) in
def InOrder (queue : List I) (state : S) : Prop :=
  ∃ outputs : List O,
    fs.map .ok ++ queue.map onInput = outputs.map (fun output => .ok (.ok output)) ∧
    outputs.foldlM onOutput start = .ok state

lemma inOrder_congr {fs' : List (Except String O)} {q q' : List I} {state : S}
    (h : fs'.map .ok ++ q'.map onInput = fs.map .ok ++ q.map onInput) :
    InOrder onInput onOutput start fs' q' state ↔ InOrder onInput onOutput start fs q state := by
  unfold InOrder
  rw [h]

variable {index : Nat}

lemma getElem?_concat_of_some {f o : Except String O} (h : fs[index]? = some f) :
    (fs ++ [o])[index]? = some f := by
  have hl : index < fs.length := (List.getElem?_eq_some_iff.mp h).1
  rw [List.getElem?_append_left hl, h]

lemma PoolOk.spawnNext (ho : PoolOk onOutput start fs p) (f : Except String O) (q : List I) :
    PoolOk onOutput start (fs ++ [f]) { p with
      queue := q
      nextIndex := p.nextIndex + 1
      set := p.set ++ [(p.nextIndex, f)] } where
  spawned := by simp [ho.spawned]
  running := by
    intro e hen
    rcases mem_append.mp hen with hen | hen
    · exact getElem?_concat_of_some (ho.running e hen)
    · cases mem_singleton.mp hen
      simp [ho.spawned]
  kept index output hot := getElem?_concat_of_some (ho.kept index output hot)
  covered := by
    intro index hf hlt
    rw [length_append, length_singleton] at hlt
    by_cases hn : index = p.nextIndex
    · exact .inl ⟨(p.nextIndex, f), by simp, hn.symm⟩
    · have hol : index < fs.length := by
        have hspn := ho.spawned
        omega
      refine (ho.covered index hf hol).imp_left ?_
      rintro ⟨e, hen, rfl⟩
      exact ⟨e, mem_append_left _ hen, rfl⟩
  flushed := by
    obtain ⟨os, r, hft, hl, hs⟩ := ho.flushed
    exact ⟨os, r ++ [f], by rw [hft, append_assoc], hl, hs⟩

variable {output : O} {os : List O} {s : PooledTasks I O S}

lemma PoolOk.complete (ho : PoolOk onOutput start fs p) {po : Nat}
    (hp : p.set[po]? = some (index, .ok output)) :
    PoolOk onOutput start fs { p with
      set := p.set.eraseIdx po
      completed := p.completed.insert index output } where
  spawned := ho.spawned
  running e hen := ho.running e (mem_of_mem_eraseIdx hen)
  kept := by
    intro o f hf
    rw [Map.lookup_insert_eq] at hf
    split at hf
    next heq =>
      cases hf
      subst heq
      exact ho.running _ (mem_of_getElem? hp)
    next => exact ho.kept o f hf
  covered := by
    intro o hfl hl
    rw [Map.lookup_insert_eq]
    split
    next => exact .inr rfl
    next hn =>
      refine (ho.covered o hfl hl).imp_left ?_
      rintro ⟨e, hen, rfl⟩
      refine ⟨e, mem_eraseIdx_iff_getElem?.mpr ?_, rfl⟩
      obtain ⟨i, hi⟩ := mem_iff_getElem?.mp hen
      refine ⟨i, ?_, hi⟩
      rintro rfl
      rw [hp] at hi
      cases hi
      exact hn rfl
  flushed := ho.flushed

lemma PoolOk.flushed_next (ho : PoolOk onOutput start fs p)
    (hn : p.completed.lookup p.flushIndex = some output) :
    ∃ (os : List O) (r : List (Except String O)), fs = (os ++ [output]).map .ok ++ r ∧
      os.length = p.flushIndex ∧ os.foldlM onOutput start = .ok p.state := by
  obtain ⟨os, r, hf, hl, hs⟩ := ho.flushed
  have ha : r[0]? = some (.ok output) := by
    have hk := ho.kept _ _ hn
    rw [hf, getElem?_append_right (by simp [hl]), length_map, hl, Nat.sub_self] at hk
    exact hk
  cases r with
  | nil => cases ha
  | cons f r =>
    cases ha
    exact ⟨os, r, by rw [hf]; simp, hl, hs⟩

variable {state : S} {r : List (Except String O)}

lemma foldlM_concat_ok (h : os.foldlM onOutput start = .ok state) :
    (os ++ [output]).foldlM onOutput start = onOutput state output := by
  rw [foldlM_append, h]
  change (onOutput state output >>= pure) = _
  rw [bind_pure]

lemma PoolOk.flushStep (ho : PoolOk onOutput start fs p)
    (hnx : p.completed.lookup p.flushIndex = some output)
    (hs : onOutput p.state output = .ok state) :
    PoolOk onOutput start fs { p with
      completed := p.completed.erase p.flushIndex
      flushIndex := p.flushIndex + 1
      state := state } where
  spawned := ho.spawned
  running := ho.running
  kept := by
    intro index f hfd
    by_cases heq : index = p.flushIndex
    · subst heq
      rw [Finmap.lookup_erase] at hfd
      cases hfd
    · rw [Finmap.lookup_erase_ne heq] at hfd
      exact ho.kept index f hfd
  covered := by
    intro index hf hlt
    have hn : index ≠ p.flushIndex := by
      change p.flushIndex + 1 ≤ index at hf
      omega
    rw [Finmap.lookup_erase_ne hn]
    exact ho.covered index (Nat.le_of_succ_le hf) hlt
  flushed := by
    obtain ⟨os, r, hft, hl, hfl⟩ := ho.flushed_next hnx
    refine ⟨os ++ [output], r, hft, by simp [hl], ?_⟩
    rw [foldlM_concat_ok hfl, hs]

lemma not_inOrder_of_mem {q : List I} {r : Except String (Except String O)}
    (hm : r ∈ fs.map .ok ++ q.map onInput) (hr : ∀ output, r ≠ .ok (.ok output)) :
    ¬ InOrder onInput onOutput start fs q state := by
  rintro ⟨os, ho, -⟩
  rw [ho] at hm
  obtain ⟨output, -, rfl⟩ := mem_map.mp hm
  exact hr output rfl

lemma prefix_of_futures {q : List I} {results : List (Except String (Except String O))}
    (hf : fs = os.map .ok ++ r) (hr : fs.map .ok ++ q.map onInput = results) :
    os.map (fun output => .ok (.ok output)) <+: results := by
  rw [← hr, hf, map_append, map_map, append_assoc]
  exact prefix_append _ _

lemma not_inOrder_of_prefix {e : String} (hf : fs = os.map .ok ++ r)
    (hfl : os.foldlM onOutput start = .error e) (q : List I) (state : S) :
    ¬ InOrder onInput onOutput start fs q state := by
  rintro ⟨all, ha, hs⟩
  have hsts : os <+: all :=
    (prefix_map_iff_of_injective (fun a b h => by cases h; rfl)).mp (ha ▸ prefix_of_futures hf rfl)
  obtain ⟨later, rfl⟩ := hsts
  rw [foldlM_append, hfl] at hs
  cases hs

section

variable (ho : PoolOk onOutput start fs p)

include ho

lemma PoolOk.of_flush {fuel : Nat} (hfu : fs.length < p.flushIndex + fuel) :
    match p.flush onOutput fuel with
    | .ok flushed => PoolOk onOutput start fs flushed ∧
        flushed.completed.lookup flushed.flushIndex = none
    | .error error => ∃ (os : List O) (r : List (Except String O)),
        fs = os.map .ok ++ r ∧ os.foldlM onOutput start = .error error := by
  induction fuel generalizing p with
  | zero =>
    obtain ⟨os, r, hf, hlen, -⟩ := ho.flushed
    rw [hf, length_append, length_map] at hfu
    omega
  | succ fuel ih =>
    unfold flush
    cases hn : p.completed.lookup p.flushIndex with
    | none => exact ⟨ho, hn⟩
    | some output =>
      dsimp only
      cases hs : onOutput p.state output with
      | error error =>
        obtain ⟨os, r, hf, -, hfl⟩ := ho.flushed_next hn
        refine ⟨os ++ [output], r, hf, ?_⟩
        rw [foldlM_concat_ok hfl, hs]
      | ok state =>
        refine ih (ho.flushStep hn hs) ?_
        change fs.length < p.flushIndex + 1 + fuel
        omega

lemma PoolOk.of_join {position : Nat} {f : Except String O}
    (hp : p.set[position]? = some (index, f)) :
    match p.join onOutput position index f with
    | .ok joined => PoolOk onOutput start fs joined ∧
        joined.completed.lookup joined.flushIndex = none ∧ joined.queue = p.queue
    | .error error => f = .error error ∨ ∃ (os : List O) (r : List (Except String O)),
        fs = os.map .ok ++ r ∧ os.foldlM onOutput start = .error error := by
  cases f with
  | error error => exact .inl rfl
  | ok output =>
    have hfl : fs.length < p.flushIndex + (p.nextIndex + 1) := by
      rw [ho.spawned]
      omega
    have hf := (ho.complete hp).of_flush hfl
    cases hj : p.join onOutput position index (.ok output) with
    | error error =>
      rw [show flush _ _ _ = _ from hj] at hf
      exact .inr hf
    | ok joined =>
      rw [show flush _ _ _ = _ from hj] at hf
      exact ⟨hf.1, hf.2, (flush_frame hj).1⟩

lemma PoolOk.inOrder_of_idle (hid : p.completed.lookup p.flushIndex = none) (hse : p.set = []) :
    InOrder onInput onOutput start fs [] state ↔ p.state = state := by
  obtain ⟨os, r, hf, hlen, hfl⟩ := ho.flushed
  have hr : r = [] := by
    by_contra hn
    have hpos := length_pos_of_ne_nil hn
    have hl : p.flushIndex < fs.length := by
      rw [hf, length_append, length_map]
      omega
    obtain ⟨e, hen, -⟩ | hs := ho.covered _ le_rfl hl
    · rw [hse] at hen
      cases hen
    · rw [hid] at hs
      cases hs
  subst hr
  rw [append_nil] at hf
  have hi : Function.Injective (fun output : O =>
      (Except.ok (Except.ok output) : Except String (Except String O))) :=
    fun a b h => by cases h; rfl
  unfold InOrder
  rw [hf, map_map, map_nil, append_nil]
  constructor
  · rintro ⟨all, ha, hst⟩
    cases map_injective_iff.mpr hi ha
    rw [hfl] at hst
    cases hst
    rfl
  · rintro rfl
    exact ⟨os, rfl, hfl⟩

lemma PoolOk.of_spawnNext
    (hi : p.completed.lookup p.flushIndex = none) (hs : p.spawnNext onInput = .ok s) :
    ∃ fs', PoolOk onOutput start fs' s ∧
      s.completed.lookup s.flushIndex = none ∧
      (s.set = [] → s.queue = []) ∧
      fs'.map .ok ++ s.queue.map onInput = fs.map .ok ++ p.queue.map onInput := by
  obtain ⟨hq, rfl⟩ | ⟨i, q, f, hq, hf, rfl⟩ := spawnNext_cases hs
  · exact ⟨fs, ho, hi, fun _ => hq, rfl⟩
  · exact ⟨fs ++ [f], ho.spawnNext f q, hi, by simp, by simp [hq, hf]⟩

end

lemma loop_eq (j : Nat → Nat) (js : Nat) :
    loop concurrency onInput onOutput j js p =
      match p.spawnNext onInput with
      | .error e => .error e
      | .ok s =>
        if s.set.length < concurrency ∧ s.queue ≠ [] then
          loop concurrency onInput onOutput j js s
        else
          match s.set[j js % s.set.length]? with
          | none => .ok s.state
          | some (index, f) =>
            match s.join onOutput (j js % s.set.length) index f with
            | .error e => .error e
            | .ok jo =>
              loop concurrency onInput onOutput j (js + 1) jo := by
  rw [loop]
  split
  next e her => rw [her]
  next s hs =>
    simp only [hs]
    split
    next => rfl
    next =>
      split
      next hp => rw [hp]
      next index f hp =>
        simp only [hp]
        split
        next e her => rw [her]
        next jo hj => rw [hj]

lemma loop_eq_ok (j : Nat → Nat) (js : Nat) (ho : PoolOk onOutput start fs p)
    (hi : p.completed.lookup p.flushIndex = none) :
    loop concurrency onInput onOutput j js p = .ok state ↔
      InOrder onInput onOutput start fs p.queue state := by
  -- along the rounds of the loop, each of which leaves the outcome in order as it is
  induction js, p using loop.induct concurrency onInput onOutput j
    generalizing fs with
  | case1 js p e her =>
    simp only [loop_eq, her, reduceCtorEq, false_iff]
    unfold spawnNext at her
    split at her
    next => cases her
    next i q hq =>
      refine not_inOrder_of_mem (mem_append_right _ (mem_map_of_mem (a := i) ?_)) ?_
      · simp [hq]
      · intro output hot
        rw [hot] at her
        cases her
  | case2 js p s hs hm ih =>
    obtain ⟨fs', ho', hi', -, hsm⟩ := ho.of_spawnNext hi hs
    rw [loop_eq, ← inOrder_congr hsm, ← ih ho' hi']
    simp only [hs, if_pos hm]
  | case3 js p s hs hm hp =>
    obtain ⟨fs', ho', hi', hq, hsm⟩ := ho.of_spawnNext hi hs
    have hst : s.set = [] := by
      by_contra hne
      have hl := Nat.mod_lt (j js) (length_pos_of_ne_nil hne)
      rw [getElem?_eq_getElem hl] at hp
      cases hp
    rw [loop_eq, ← inOrder_congr hsm, hq hst, ho'.inOrder_of_idle hi' hst]
    simp only [hs, if_neg hm, hp, Except.ok.injEq]
  | case4 js p s hs hm index f hp e her =>
    obtain ⟨fs', ho', hi', -, hsm⟩ := ho.of_spawnNext hi hs
    have hn : ¬ InOrder onInput onOutput start fs' s.queue state := by
      have hjn := ho'.of_join hp
      rw [her] at hjn
      obtain rfl | ⟨os, r, hf, hfl⟩ := hjn
      · have hme := mem_of_getElem? (ho'.running _ (mem_of_getElem? hp))
        exact not_inOrder_of_mem (mem_append_left _ (mem_map_of_mem hme)) (by simp)
      · exact not_inOrder_of_prefix hf hfl _ _
    rw [loop_eq, ← inOrder_congr hsm]
    simp only [hs, if_neg hm, hp, her, reduceCtorEq, false_iff]
    exact hn
  | case5 js p s hs hm index f hp joined hj ih =>
    obtain ⟨fs', ho', hi', -, hsm⟩ := ho.of_spawnNext hi hs
    have hjn := ho'.of_join hp
    rw [hj] at hjn
    obtain ⟨hnx, hidl, hq⟩ := hjn
    rw [loop_eq, ← inOrder_congr hsm, ← hq, ← ih hnx hidl]
    simp only [hs, if_neg hm, hp, hj]

lemma poolOk_start (q : List I) : PoolOk onOutput start [] { queue := q, state := start } where
  spawned := rfl
  running := by simp
  kept := by simp
  covered := by simp
  flushed := ⟨[], [], rfl, rfl, rfl⟩

/-- Whichever future is done first, the outcome is that of a loop over the inputs: it succeeds
if every input, future and output does, and the outputs are applied in the order of the
inputs. -/
theorem runPooledTasks_eq_ok (j : Nat → Nat) (q : List I) (state : S) :
    runPooledTasks concurrency onInput onOutput j q start = .ok state ↔ ∃ os : List O,
        q.map onInput = os.map (fun output => .ok (.ok output)) ∧
        os.foldlM onOutput start = .ok state := by
  unfold runPooledTasks
  rw [loop_eq_ok j 0 (poolOk_start q) (by simp)]
  rfl

variable (concurrency onInput onOutput start) in
/-- The pools that the rounds of the loop start from. -/
inductive Visited (joinNext : Nat → Nat) (queue : List I) : Nat → PooledTasks I O S → Prop
  | start : Visited joinNext queue 0 { queue := queue, state := start }
  | spawn {joins : Nat} {pool spawned : PooledTasks I O S} (h : Visited joinNext queue joins pool)
      (hspawned : pool.spawnNext onInput = .ok spawned)
      (hmore : spawned.set.length < concurrency ∧ spawned.queue ≠ []) :
      Visited joinNext queue joins spawned
  | join {joins index : Nat} {pool spawned joined : PooledTasks I O S} {future : Except String O}
      (h : Visited joinNext queue joins pool) (hspawned : pool.spawnNext onInput = .ok spawned)
      (hmore : ¬ (spawned.set.length < concurrency ∧ spawned.queue ≠ []))
      (hposition : spawned.set[joinNext joins % spawned.set.length]? = some (index, future))
      (hjoined : spawned.join onOutput (joinNext joins % spawned.set.length) index future =
        .ok joined) : Visited joinNext queue (joins + 1) joined

variable {j : Nat → Nat} {q : List I} {js : Nat}

lemma Visited.loop_eq_run (h : Visited concurrency onInput onOutput start j q js p) :
    loop concurrency onInput onOutput j js p =
      runPooledTasks concurrency onInput onOutput j q start := by
  induction h with
  | start => rfl
  | spawn _ hs hm ih =>
    rw [loop_eq] at ih
    simpa only [hs, if_pos hm] using ih
  | join _ hs hm hp hj ih =>
    rw [loop_eq] at ih
    simpa only [hs, if_neg hm, hp, hj] using ih

lemma Visited.poolOk (h : Visited concurrency onInput onOutput start j q js p) :
    ∃ fs, PoolOk onOutput start fs p ∧
      p.completed.lookup p.flushIndex = none ∧
      fs.map .ok ++ p.queue.map onInput = q.map onInput := by
  induction h with
  | start => exact ⟨[], poolOk_start q, by simp, rfl⟩
  | spawn _ hs _ ih =>
    obtain ⟨fs, ho, hi, hq⟩ := ih
    obtain ⟨fs', ho', hi', -, hsm⟩ := ho.of_spawnNext hi hs
    exact ⟨fs', ho', hi', hsm.trans hq⟩
  | join _ hs _ hp hjnd ih =>
    obtain ⟨fs, ho, hi, hq⟩ := ih
    obtain ⟨fs', ho', -, -, hsm⟩ := ho.of_spawnNext hi hs
    have hj := ho'.of_join hp
    rw [hjnd] at hj
    obtain ⟨hn, hi', hr⟩ := hj
    exact ⟨fs', hn, hi', by rw [hr, hsm, hq]⟩

lemma length_set_spawnNext (h : p.spawnNext onInput = .ok s) : s.set.length ≤ p.set.length + 1 := by
  obtain ⟨-, rfl⟩ | ⟨i, q, f, -, -, rfl⟩ := spawnNext_cases h
  · exact Nat.le_succ _
  · simp

lemma Visited.length_set_lt (hc : 1 ≤ concurrency)
    (h : Visited concurrency onInput onOutput start j q js p) : p.set.length < concurrency := by
  induction h with
  | start => exact hc
  | spawn _ _ hm => exact hm.1
  | @join _ _ p _ _ f _ hs _ hp hj ih =>
    cases f with
    | error error => cases hj
    | ok output =>
      obtain ⟨hl, -⟩ := List.getElem?_eq_some_iff.mp hp
      have hone := length_set_spawnNext hs
      rw [(flush_frame hj).2.2, length_eraseIdx_of_lt hl]
      omega

variable (onInput onOutput start) in
/-- The callback came to `result`, applied in order to the outputs of the first inputs. -/
def Applied (queue : List I) (result : Except String S) : Prop :=
  ∃ outputs : List O, outputs.map (fun output => .ok (.ok output)) <+: queue.map onInput ∧
    outputs.foldlM onOutput start = result

/-- In every round at most as many futures run as allowed, and the callback was applied, in order,
to the outputs of the first inputs. If every input, future and call ends well, it is applied to
all. -/
theorem pool_bounded_in_order (hcnc : 1 ≤ concurrency) (joinNext : Nat → Nat) (queue : List I) :
    (∀ joins pool, Visited concurrency onInput onOutput start joinNext queue joins pool →
      PooledTasks.loop concurrency onInput onOutput joinNext joins pool =
        runPooledTasks concurrency onInput onOutput joinNext queue start ∧
      Applied onInput onOutput start queue (.ok pool.state) ∧
      ∀ spawned, pool.spawnNext onInput = .ok spawned → spawned.set.length ≤ concurrency ∧
        ∀ position index output error, spawned.set[position]? = some (index, .ok output) →
          spawned.join onOutput position index (.ok output) = .error error →
          Applied onInput onOutput start queue (.error error)) ∧
    ∀ state, runPooledTasks concurrency onInput onOutput joinNext queue start = .ok state ↔
      ∃ outputs : List O, queue.map onInput = outputs.map (fun output => .ok (.ok output)) ∧
        outputs.foldlM onOutput start = .ok state := by
  refine ⟨fun joins pool h => ⟨h.loop_eq_run, ?_, fun spawned hs => ⟨?_, ?_⟩⟩,
    runPooledTasks_eq_ok joinNext queue⟩
  · obtain ⟨fs, ho, -, hq⟩ := h.poolOk
    obtain ⟨outputs, r, hf, -, hfl⟩ := ho.flushed
    exact ⟨outputs, prefix_of_futures hf hq, hfl⟩
  · have hlt := h.length_set_lt hcnc
    have hone := length_set_spawnNext hs
    omega
  · intro position index output error hp her
    obtain ⟨fs, ho, hi, hq⟩ := h.poolOk
    obtain ⟨fs', ho', -, -, hsm⟩ := ho.of_spawnNext hi hs
    have hj := ho'.of_join hp
    rw [her] at hj
    obtain ⟨⟨⟩⟩ | ⟨outputs, r, hf, hfl⟩ := hj
    exact ⟨outputs, prefix_of_futures hf (hsm.trans hq), hfl⟩

end

/-- Two inputs are given to a pool of one; the second output is refused. -/
theorem pool_of_one : 1 ≤ 1 ∧ ∀ state, runPooledTasks 1 (fun n : Nat => .ok (.ok n))
      (fun (sum n : Nat) => if n = 2 then .error "refused" else .ok (sum + n)) (fun _ => 0)
      [1, 2] 0 ≠ .ok state := by
  refine ⟨le_rfl, fun state h => ?_⟩
  obtain ⟨os, ho, hf⟩ := ((pool_bounded_in_order le_rfl _ _).2 state).mp h
  match os, ho with
  | [_, _], rfl => cases hf

end Moon.Proofs
