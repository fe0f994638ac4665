import MagiskBuild.Runs

/-!
What no run of build.py touches: the hand-written files of `native`. Every action leaves a path
below `native` as it was unless the path is in a build tree (`native/src/target`, `native/libs`,
`native/obj`, `native/out`), is `native` itself, or is one of the generated sources a clean run
removes, as long as the configured output directory is outside `native`. So over any sequence of
such runs, returning or failing, those files stay as they were.
-/
namespace MagiskBuild

/-- A hand-written file of `native`: below it, and nothing a binary run writes. -/
def NativeSource (q : Path) : Prop := ["native"] <+: q ∧ BuildFree q

instance : DecidablePred NativeSource := fun q => inferInstanceAs (Decidable (["native"] <+: q ∧ BuildFree q))

theorem NativeSource.off_cpp {q : Path} (h : NativeSource q) : ∀ p ∈ cppTrees, ¬ p <+: q := by
  obtain ⟨-, ⟨-, out, -⟩, libs, obj⟩ := h
  simp only [cppTrees, List.mem_cons, List.mem_singleton, List.not_mem_nil, or_false]
  rintro p (rfl | rfl | rfl) <;> assumption

theorem outTarget_apart {outdir q : Path} {name : String} (outside : ¬ ["native"] <+: outdir)
    (hn : name ≠ "native") (hq : ["native"] <+: q) : Apart (outdir ++ [name]) q := by
  obtain ⟨u, rfl⟩ := hq
  cases outdir with
  | nil => exact ⟨fun pre => hn (List.cons_prefix_cons.mp pre).1, fun pre => absurd (List.cons_prefix_cons.mp pre).1.symm hn⟩
  | cons a t =>
    have ha : a ≠ "native" := fun e => outside ⟨t, by rw [e]; rfl⟩
    exact ⟨fun pre => ha (List.cons_prefix_cons.mp pre).1, fun pre => absurd (List.cons_prefix_cons.mp pre).1.symm ha⟩

theorem apkNames_ne_native (release : Bool) :
    apkName "app" release ≠ "native" ∧ apkName "stub" release ≠ "native" ∧ stubName release ≠ "native" := by
  cases release <;> decide

theorem NativeSource.appFree {cfg : Config} {q : Path} (release : Bool) (out : ¬ ["native"] <+: cfg.outdir)
    (h : NativeSource q) : AppFree cfg release q :=
  have names := apkNames_ne_native release
  ⟨h.1, outTarget_apart out names.1 h.1, fun e => (outTarget_apart out names.2.2 h.1).1 (by rw [e]; rfl)⟩

section Actions

variable (env : Env) {P : Path → Prop}

theorem gradlewCmd_untouched {tasks : List String} {fs fs' : Fs} (hP : ∀ q, P q → ["native"] <+: q)
    (h : (Cmd.gradlew tasks).Allows fs fs') : Frame P fs fs' := fun q hq => h q (hP q hq)

theorem cleanRust_untouched (hP : ∀ q, P q → ¬ CargoWrites q) : Effect (Frame P) cleanRust :=
  (rmRf_untouched fun q hq pre => hP q hq (.inl pre)).bind fun _ =>
    (Effect.forM fun _ hp => rm_untouched fun q hq e => hP q hq (.inr (.inr (.inl (e ▸ hp))))).bind fun _ w => by
      have gens : Effect (Frame P) ((rsGens w.fs).forM rm) := .forM fun _ hp => rm_untouched fun q hq e =>
        hP q hq (.inr (.inr (.inr (e ▸ (mem_rsGens.mp hp).1))))
      exact gens w

theorem cleanJava_untouched (hP : ∀ q, P q → ["native"] <+: q) : Effect (Frame P) (cleanJava env) :=
  (findJdk_effect env fun _ _ h q _ => h q).bind fun _ => (execv_effect env fun _ _ => gradlewCmd_untouched hP).bind
    fun _ => .forM fun _ hp => rmRf_untouched fun q hq => stubAssets_outside hp (hP q hq)

theorem cleanup_untouched (target : List String) (hP : ∀ q, P q → NativeSource q) :
    Effect (Frame P) (cleanup env target) := by
  rw [cleanup_eq]
  exact (Effect.when fun _ => .forM fun p hp => rmRf_untouched fun q hq => (hP q hq).off_cpp p hp).bind fun _ =>
    (Effect.when fun _ => cleanRust_untouched fun q hq => (hP q hq).2.1.1).bind fun _ =>
      Effect.when fun _ => cleanJava_untouched env fun q hq => (hP q hq).1

theorem buildStub_untouched (cfg : Config) (args : Args)
    (hP : ∀ q, P q → ["native"] <+: q ∧ Apart (apkTarget cfg "stub" args.release) q) :
    Effect (Frame P) (buildStub env cfg args) :=
  buildApk_effect env cfg args (fun _ _ h q _ => h q) (fun _ _ h q hq => h q (hP q hq).1)
    fun _ => (mv_frame _ _).mono fun q hq => ⟨apkSource_not_native _ (by decide) (hP q hq).1, (hP q hq).2⟩

end Actions

def OutsideNative (env : Env) (args : Args) (w : World) : Prop :=
  ∀ cfg w₁, loadConfig env args w = .ok cfg w₁ → ¬ ["native"] <+: cfg.outdir

section Main

variable (env : Env) {args : Args} {w : World}

theorem loadConfig_frame {cfg : Config} {w₁ : World} (h : loadConfig env args w = .ok cfg w₁) :
    Frame (fun q => ¬ q <+: cfg.outdir) w.fs w₁.fs := by
  rcases loadConfig_final env args w with same | ⟨cfg', fs, hm, h'⟩
  · rw [h] at same
    rw [show w₁ = w from same]
    exact fun _ _ => rfl
  · rw [h'] at h
    cases h
    exact (makedirs_frame hm).mono fun q hq pre => absurd pre hq

theorem loadConfig_error_same {e : Failure} {w' : World} (h : loadConfig env args w = .error e w') : w' = w := by
  rcases loadConfig_final env args w with same | ⟨_, _, _, h'⟩
  · rw [h] at same
    exact same
  · rw [h'] at h
    cases h

theorem loadConfig_bind_untouched {α : Type} {f : Config → M α} (outside : OutsideNative env args w)
    (hf : ∀ cfg, ¬ ["native"] <+: cfg.outdir → Effect (Frame NativeSource) (f cfg)) :
    Frame NativeSource w.fs (final ((loadConfig env args >>= f) w)).fs := by
  rw [bind_apply]
  split
  · rename_i cfg w₁ h
    have out := outside cfg w₁ h
    exact trans_of (Frame NativeSource) ((loadConfig_frame env h).mono fun q hq pre => out (hq.1.trans pre))
      (hf cfg out w₁)
  · rename_i h
    rw [loadConfig_error_same env h]
    exact fun _ _ => rfl

theorem main_untouched (act : Action) (build : ∀ commands, act ≠ .cargo commands) (outside : OutsideNative env args w) :
    Frame NativeSource w.fs (final (main env args act w)).fs := by
  have binary : ∀ cfg args, Effect (Frame NativeSource) (buildBinary env cfg args) :=
    fun cfg args => buildBinary_untouched env (fun _ hq => hq.2) cfg args
  have app : ∀ cfg, ¬ ["native"] <+: cfg.outdir → ∀ args : Args, Effect (Frame NativeSource) (buildApp env cfg args) :=
    fun cfg out args => (buildApp_untouched env cfg args).mono fun _ _ fr => fr.mono fun _ hq => hq.appFree _ out
  refine loadConfig_bind_untouched env outside fun cfg out => ?_
  cases act with
  | all => exact (binary cfg _).bind fun _ => app cfg out _
  | binary => exact binary cfg args
  | cargo commands => exact absurd rfl (build commands)
  | app => exact app cfg out args
  | stub =>
    exact buildStub_untouched env cfg args fun _ hq =>
      ⟨hq.1, outTarget_apart out (apkNames_ne_native args.release).2.1 hq.1⟩
  | clean => exact cleanup_untouched env args.target fun _ h => h

end Main

/-- The trees reached from `fs` by runs of the script other than `build.py cargo`, each on its
machine and as its own process, each configuring an output directory outside `native`. -/
inductive RunsOutside (fs : Fs) : Fs → Prop
  | start : RunsOutside fs fs
  | run (env : Env) (args : Args) (act : Action) (w : World) (prev : RunsOutside fs w.fs)
      (build : ∀ commands, act ≠ .cargo commands) (outside : OutsideNative env args w) :
      RunsOutside fs (final (main env args act w)).fs

theorem archTree_outdir {args : Args} (hc : args.config = "config.prop".toList) {cfg : Config} {w₁ : World}
    (h : loadConfig bbEnv args ⟨archTree, []⟩ = .ok cfg w₁) :
    cfg.outdir = ["out"] ∧ (cfg.props.lookup "outdir".toList).getD [] = "out".toList := by
  have same : loadConfig bbEnv args ⟨archTree, []⟩ = loadConfig bbEnv bbArgs ⟨archTree, []⟩ := by
    obtain ⟨t, r, v, c⟩ := args
    subst hc
    rfl
  have key : (match loadConfig bbEnv bbArgs ⟨archTree, []⟩ with
      | .ok cfg _ => decide (cfg.outdir = ["out"] ∧ (cfg.props.lookup "outdir".toList).getD [] = "out".toList)
      | .error _ _ => false) = true := by decide
  rw [← same, h] at key
  exact of_decide_eq_true key

end MagiskBuild
