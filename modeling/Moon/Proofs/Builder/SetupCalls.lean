import Moon.Proofs.Builder.Fuel

/-!
# Setting up toolchains

A toolchain that is already in the graph is linked again, to what it requires from where the
call comes in.
-/

namespace Moon.Proofs.Builder

open Moon.Lib ActionGraphBuilder

variable {A : Type} {env : BuilderEnv A} {b : ActionGraphBuilder A} {fuel : Nat}

def setupToolchains (env : BuilderEnv A) (fuel : Nat) :
    List (Option Project × ToolchainSpec) → BuildM A Unit
  | [] => return ()
  | (project, spec) :: cs => do
    let _ ← setupToolchain env fuel project spec
    setupToolchains env fuel cs

def EnoughFuel (env : BuilderEnv A) (fuel : Nat) (call : Option Project × ToolchainSpec) : Prop :=
  ∃ project, (call.1 = none ∨ call.1 = some project) ∧
    call.2.id ∈ toolchainIds env project ∧ (toolchainIds env project).length < fuel

variable {cs : List (Option Project × ToolchainSpec)}

lemma setupToolchains_spec (fuel : Nat) (cs : List (Option Project × ToolchainSpec)) :
    SetupAt env b (setupToolchains env fuel cs) (fun _ _ => True) := by
  induction cs generalizing b with
  | nil => exact SetupAt.pure trivial
  | cons c cs ih => exact SetupAt.bind (setupToolchain_spec fuel _ _) (fun _ _ _ _ => ih)

lemma setupToolchains_completes (h : ∀ c ∈ cs, EnoughFuel env fuel c) :
    Completes env (setupToolchains env fuel cs) := by
  induction cs with
  | nil => exact .pure ()
  | cons c cs ih =>
    obtain ⟨p, ho, hs, hf⟩ := h c List.mem_cons_self
    apply Completes.bind (setupToolchain_completes ho hf hs)
    exact fun _ => ih (List.forall_mem_of_forall_mem_cons h)

/-- What the calls have come to: one node for each toolchain that was set up, without a cycle,
or an error that is not a cycle. -/
def SetUpOnce (env : BuilderEnv A) (fuel : Nat) (calls : List (Option Project × ToolchainSpec)) :
    EStateM.Result ActionGraphError (ActionGraphBuilder A) Unit → Prop
  | .ok _ b => Acyclic (EdgeRel b.graph.edges) ∧
      ∀ (i j : Nat) spec, b.graph.nodes[i]? = some (ActionNode.setupToolchain spec) →
        b.graph.nodes[j]? = some (ActionNode.setupToolchain spec) → i = j
  | .error e _ => e.isWouldCycle = false ∧
      ((∀ call ∈ calls, EnoughFuel env fuel call) → External env e)

/-- Where toolchains do not require each other in a circle, they can be set up in any order. -/
theorem toolchains_set_up_once (env : BuilderEnv A) (affected : Option A) (fuel : Nat)
    (calls : List (Option Project × ToolchainSpec)) (hacyclic : Acyclic (ToolchainRequires env)) :
    SetUpOnce env fuel calls ((setupToolchains env fuel calls).run { affected := affected }) := by
  have hs := setupToolchains_spec fuel calls (wellFormed_new env affected) _ rfl
  have hc (h : ∀ c ∈ calls, EnoughFuel env fuel c) :=
    setupToolchains_completes h { affected := affected } trivial
  cases hr : (setupToolchains env fuel calls).run { affected := affected } with
  | ok _ b =>
    rw [hr] at hs
    refine ⟨b.graph.acyclic, fun i j spec hi hj => ?_⟩
    obtain ⟨hl, -⟩ := List.getElem?_eq_some_iff.mp hi
    exact (List.getElem?_inj hl hs.1.nodup).mp (hi.trans hj.symm)
  | error e b =>
    rw [hr] at hs hc
    have hn := hs hacyclic
    exact ⟨hn, fun h => (hc h).resolve_right (by simp [hn])⟩

def pairEnv (requires : Id → List Id) : BuilderEnv AffectedMarks where
  workspace := { projects := [], tasks := [] }
  tracker := affectedTracker { workspace := { projects := [], tasks := [] } }
  toolchainsConfig := [("a", {}), ("b", {})]
  loadToolchain id := .ok
    { supportsTier3 := true
      defineRequirements := fun _ => .ok { requires := requires id, forSetupToolchain := true } }

theorem b_set_up_for_a : SetUpOnce (pairEnv fun id => if id = "a" then ["b"] else []) 3
      [(none, ⟨"a", none⟩), (none, ⟨"b", none⟩)]
      ((setupToolchains (pairEnv fun id => if id = "a" then ["b"] else []) 3
        [(none, ⟨"a", none⟩), (none, ⟨"b", none⟩)]).run {}) := by
  apply toolchains_set_up_once
  apply acyclic_of_rank (fun id => if id = "a" then 1 else 0)
  rintro id requireId ⟨plugin, p, o, hp, ho, -, hm, hne⟩
  cases hp
  cases ho
  by_cases hi : id = "a"
  · simp only [hi, if_true, List.mem_singleton] at hm ⊢
    simp [hm]
  · simp [hi] at hm

/-- The call for `b` links it to `a`, which was linked to `b` before. -/
theorem circle_set_up_wouldCycle :
    ∃ b, (setupToolchains (pairEnv fun id => if id = "a" then ["b"] else ["a"]) 3
      [(none, ⟨"a", none⟩), (none, ⟨"b", none⟩)]).run {} =
        .error (.wouldCycle "SetupToolchain(b)" "SetupToolchain(a)") b :=
  ⟨_, rfl⟩

end Moon.Proofs.Builder
