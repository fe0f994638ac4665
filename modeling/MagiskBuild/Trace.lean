import MagiskBuild.Runs

/-!
Which ndk-build passes a run starts, read off its log. `build_binary` starts ndk-build for the
first pass when the chosen targets give it flags, for the second with `B_CRT0=1`, and for
busybox; nothing else build.py does starts ndk-build. So every run of the script, returning or
failing, starts a prefix of the passes its request selects, in order and each once, and a run
that returns started all of them; over a session of runs the log gains those prefixes run by run.
-/
namespace MagiskBuild

def ndkPasses : List Event → List String
  | [] => []
  | .exec (.ndkBuild flags _) _ :: es => flags :: ndkPasses es
  | _ :: es => ndkPasses es

def Cmd.passes : Cmd → List String
  | .ndkBuild flags _ => [flags]
  | _ => []

@[simp] theorem ndkPasses_append (l₁ l₂ : List Event) : ndkPasses (l₁ ++ l₂) = ndkPasses l₁ ++ ndkPasses l₂ := by
  induction l₁ with
  | nil => rfl
  | cons e es ih => rcases e with ⟨_ | _ | _ | _ | _ | _, _⟩ | _ <;> simp [ndkPasses, ih]

@[simp] theorem ndkPasses_exec (c : Cmd) (st : Nat) : ndkPasses [.exec c st] = c.passes := by
  cases c <;> rfl

@[simp] theorem ndkPasses_write (p : Path) : ndkPasses [.write p] = [] := rfl

/-- Every run of `act`, returning or failing, starts ndk-build for a prefix of the passes `ps`,
in order, and a run that returns for all of them. -/
def Passes {α : Type} (act : M α) (ps : List String) : Prop :=
  ∀ w, ∃ qs, qs <+: ps ∧ ndkPasses (final (act w)).log = ndkPasses w.log ++ qs ∧
    ∀ a w', act w = .ok a w' → qs = ps

section Combinators

variable {α β : Type} {ps ps' ps'' : List String}

theorem Passes.of_log {act : M α} (h : ∀ w, ndkPasses (final (act w)).log = ndkPasses w.log) : Passes act [] :=
  fun w => ⟨[], List.prefix_refl _, by rw [h, List.append_nil], fun _ _ _ => rfl⟩

theorem Passes.congr {act : M α} (h : Passes act ps) (e : ps = ps') : Passes act ps' := e ▸ h

theorem Passes.pure (a : α) : Passes (pure a : M α) [] := .of_log fun _ => rfl

theorem Passes.error (msg : String) (ps : List String) : Passes (error msg : M α) ps :=
  fun w => ⟨[], List.nil_prefix, (List.append_nil _).symm, fun _ _ h => by cases h⟩

theorem Passes.bind {x : M α} {f : α → M β} (hx : Passes x ps) (hf : ∀ a, Passes (f a) ps') :
    Passes (x >>= f) (ps ++ ps') := fun w => by
  obtain ⟨qs, pre, log, full⟩ := hx w
  rw [bind_apply]
  rcases h : x w with ⟨a, w₁⟩ | ⟨e, w₁⟩ <;> rw [h] at log full
  · obtain rfl := full a w₁ rfl
    obtain ⟨qs', pre', log', full'⟩ := hf a w₁
    refine ⟨qs ++ qs', (List.prefix_append_right_inj qs).mpr pre', ?_, fun b w' h' => by rw [full' b w' h']⟩
    rw [show final (f a w₁) = final _ from rfl, log', show ndkPasses w₁.log = _ from log, List.append_assoc]
  · exact ⟨qs, pre.trans (List.prefix_append _ _), log, fun _ _ h' => by cases h'⟩

theorem Passes.ite {c : Prop} [Decidable c] {x y : M α} (hx : Passes x ps) (hy : Passes y ps') :
    Passes (if c then x else y) (if c then ps else ps') := by
  split <;> assumption

theorem Passes.ite_same {c : Prop} [Decidable c] {x y : M α} (hx : Passes x ps) (hy : Passes y ps) :
    Passes (if c then x else y) ps := by
  split <;> assumption

theorem Passes.ite_bind {c : Prop} [Decidable c] {x y : M α} {f : α → M β} (hx : Passes x ps) (hy : Passes y ps')
    (hf : ∀ a, Passes (f a) ps'') : Passes (if c then x >>= f else y >>= f) ((if c then ps else ps') ++ ps'') := by
  split
  · exact hx.bind hf
  · exact hy.bind hf

theorem Passes.forM {γ : Type} {xs : List γ} {f : γ → M Unit} (h : ∀ x ∈ xs, Passes (f x) []) :
    Passes (xs.forM f) [] := by
  induction xs with
  | nil => exact .pure _
  | cons x xs ih =>
    rw [List.forM_cons']
    exact (h x (List.mem_cons_self x xs)).bind fun _ => ih fun y hy => h y (List.mem_cons_of_mem x hy)

end Combinators

section Calls

variable (env : Env)

theorem execv_passes (c : Cmd) : Passes (execv env c) c.passes := fun w => by
  unfold execv
  split
  · exact ⟨c.passes, List.prefix_refl _, by simp [final], fun _ _ _ => rfl⟩
  · exact ⟨[], List.nil_prefix, by simp [final], fun _ _ h => by cases h⟩

theorem liftFs_passes (p : Path) (f : Fs → Except OsError Fs) : Passes (liftFs p f) [] :=
  .of_log fun w => by unfold liftFs; split <;> rfl

theorem readText_passes (p : Path) : Passes (readText env p) [] :=
  .of_log fun w => by rcases readText_keeps env p w with ⟨_, h⟩ | ⟨_, h⟩ <;> rw [h] <;> rfl

theorem readBytes_passes (p : Path) : Passes (readBytes p) [] :=
  .of_log fun w => by unfold readBytes; split <;> rfl

theorem writeText_passes (p : Path) (s : Str) : Passes (writeText env p s) [] :=
  .of_log fun w => by
    unfold writeText
    repeat' split
    all_goals simp [final]

theorem chdir_passes (p : Path) : Passes (chdir p) [] := .of_log fun w => by unfold chdir; split <;> rfl

theorem mv_passes (src dst : Path) : Passes (mv src dst) [] := .of_log fun _ => rfl

theorem cp_passes (src dst : Path) : Passes (cp src dst) [] := .of_log fun _ => rfl

theorem pathExists_passes (p : Path) : Passes (pathExists p) [] := .of_log fun _ => rfl

theorem globRsGens_passes : Passes globRsGens [] := .of_log fun _ => rfl

end Calls

def targetPasses (ts : List String) : List String :=
  (if firstFlags ts ≠ "" then [ndkFlags (firstFlags ts)] else []) ++
  (if secondFlags ts ≠ "" then [ndkFlags (secondFlags ts ++ " B_CRT0=1")] else []) ++
  (if ts.contains "busybox" then [ndkFlags "B_BB=1"] else [])

def binaryPasses (target : List String) : List String := ((selectTargets target).map targetPasses).getD []

example : binaryPasses [] = [ndkFlags " B_MAGISK=1 B_POLICY=1 B_PRELOAD=1", ndkFlags " B_INIT=1 B_BOOT=1 B_CRT0=1",
    ndkFlags "B_BB=1"] := by decide

/-- The passes of a run of the script: those of `build_binary` for `binary` and `all`, which
takes no targets, and none for the others. -/
def mainPasses (args : Args) : Action → List String
  | .all => binaryPasses []
  | .binary => binaryPasses args.target
  | _ => []

section Functions

variable (env : Env)

theorem writeIfDiff_passes (p : Path) (text : Str) : Passes (writeIfDiff env p text) [] :=
  ((pathExists_passes p).bind fun _ => .ite_same ((readText_passes env p).bind fun _ => .pure _) (.pure _)).bind
    fun _ => .ite_same (writeText_passes env p text) (.pure ())

theorem dumpFlagHeader_passes (cfg : Config) (release : Bool) : Passes (dumpFlagHeader env cfg release) [] :=
  (liftFs_passes _ _).bind fun _ => writeIfDiff_passes env _ _

theorem dumpBinHeader_passes : Passes (dumpBinHeader env) [] :=
  (liftFs_passes _ _).bind fun _ => .forM fun _ _ => (readBytes_passes _).bind fun _ => writeIfDiff_passes env _ _

theorem relocate_passes : Passes relocate [] := .forM fun _ _ => .forM fun _ _ => mv_passes _ _

theorem runNdkBuild_passes (flags : String) : Passes (runNdkBuild env flags) [ndkFlags flags] :=
  (chdir_passes _).bind fun _ => (execv_passes env _).bind fun _ =>
    .ite_same ((Passes.error _ []).bind fun _ => relocate_passes) ((Passes.pure ()).bind fun _ => relocate_passes)

theorem runCargo_passes (cmds : List String) : Passes (runCargo env cmds) [] := execv_passes env _

theorem runCargoBuild_passes (target : List String) (release verbose : Bool) :
    Passes (runCargoBuild env target release verbose) [] :=
  (liftFs_passes _ _).bind fun _ => .ite_same (.pure ()) <| .forM fun _ _ =>
    (Passes.forM fun _ _ => (runCargo_passes env _).bind fun _ => .ite_same (.error _ _) (.pure ())).bind fun _ =>
      (liftFs_passes _ _).bind fun _ => .forM fun _ _ => mv_passes _ _

theorem elfCleaner_passes : Passes (elfCleaner env) [] :=
  .ite_same (.pure _) <| (pathExists_passes _).bind fun _ =>
    .ite_same ((Passes.pure ()).bind fun _ => .pure _)
      ((execv_passes env _).bind fun _ => (Passes.pure ()).bind fun _ => .pure _)

theorem cleanElf_passes : Passes (cleanElf env) [] :=
  (elfCleaner_passes env).bind fun _ => (execv_passes env _).bind fun _ => .pure ()

theorem checkNdk_passes (cfg : Config) : Passes (checkNdk env cfg) [] :=
  .of_log fun w => by
    unfold checkNdk
    rcases readText_keeps env (env.ndkPath ++ ["ONDK_VERSION"]) w with ⟨_, h⟩ | ⟨_, h⟩ <;> rw [h]
    · dsimp only
      split <;> rfl
    · rfl

theorem buildTargets_passes (cfg : Config) (release verbose : Bool) (ts : List String) :
    Passes (buildTargets env cfg release verbose ts) (targetPasses ts) :=
  .congr ((chdir_passes _).bind fun _ => (runCargoBuild_passes env ts release verbose).bind fun _ =>
    (dumpFlagHeader_passes env cfg release).bind fun _ =>
    .ite_bind (runNdkBuild_passes env _) (.pure ()) fun _ =>
    .ite_bind (dumpBinHeader_passes env) (.pure ()) fun _ =>
    .ite_bind (runNdkBuild_passes env _) (.pure ()) fun _ =>
    .ite_bind (cleanElf_passes env) (.pure ()) fun _ =>
    .ite (runNdkBuild_passes env _) (.pure ())) (by simp [targetPasses])

theorem buildBinary_passes (cfg : Config) (args : Args) :
    Passes (buildBinary env cfg args) (binaryPasses args.target) := by
  refine (checkNdk_passes env cfg).bind fun _ => ?_
  cases selectTargets args.target with
  | none => exact .pure ()
  | some ts => exact buildTargets_passes env cfg _ _ ts

theorem findJdk_passes : Passes (findJdk env) [] := fun w => by
  have same : final (findJdk env w) = final (execv env .javac w) := by
    unfold findJdk
    rcases execv env .javac w with ⟨st, w'⟩ | ⟨e, w'⟩
    · dsimp only
      split <;> rfl
    · rfl
  obtain ⟨qs, pre, log, -⟩ := execv_passes env .javac w
  exact ⟨qs, pre, same ▸ log, fun _ _ _ => List.prefix_nil.mp pre⟩

theorem buildApk_passes (cfg : Config) (args : Args) (module : String) : Passes (buildApk env cfg args module) [] :=
  (findJdk_passes env).bind fun _ => (execv_passes env _).bind fun _ =>
    .ite_same ((Passes.error _ []).bind fun _ => mv_passes _ _) ((Passes.pure ()).bind fun _ => mv_passes _ _)

theorem buildApp_passes (cfg : Config) (args : Args) : Passes (buildApp env cfg args) [] :=
  (buildApk_passes env cfg args _).bind fun _ => cp_passes _ _

theorem buildAll_passes (cfg : Config) (args : Args) : Passes (buildAll env cfg args) (binaryPasses args.target) :=
  ((buildBinary_passes env cfg args).bind fun _ => buildApp_passes env cfg args).congr (List.append_nil _)

theorem cleanRust_passes : Passes cleanRust [] :=
  (liftFs_passes _ _).bind fun _ => (Passes.forM fun _ _ => liftFs_passes _ _).bind fun _ =>
    globRsGens_passes.bind fun _ => .forM fun _ _ => liftFs_passes _ _

theorem cleanJava_passes : Passes (cleanJava env) [] :=
  (findJdk_passes env).bind fun _ => (execv_passes env _).bind fun _ => .forM fun _ _ => liftFs_passes _ _

theorem cleanup_passes (target : List String) : Passes (cleanup env target) [] :=
  (Passes.ite_same (.forM fun _ _ => liftFs_passes _ _) (.pure ())).bind fun _ =>
    (Passes.ite_same cleanRust_passes (.pure ())).bind fun _ => .ite_same (cleanJava_passes env) (.pure ())

theorem loadConfig_passes (args : Args) : Passes (loadConfig env args) [] := by
  have props : ∀ p, Passes (readPropsIfExists env p) [] := fun p =>
    (pathExists_passes p).bind fun _ => .ite_same ((readText_passes env p).bind fun _ => .pure _) (.pure _)
  refine (props _).bind fun _ => (props _).bind fun _ => ?_
  dsimp only
  split
  · exact .error _ _
  · exact (liftFs_passes _ _).bind fun _ => .pure _

theorem func_passes (cfg : Config) (args : Args) (act : Action) :
    Passes (act.func env cfg args) (mainPasses args act) := by
  cases act with
  | all => exact buildAll_passes env cfg _
  | binary => exact buildBinary_passes env cfg args
  | cargo => exact (chdir_passes _).bind fun _ => (runCargo_passes env _).bind fun _ => .pure ()
  | app => exact buildApp_passes env cfg args
  | stub => exact buildApk_passes env cfg args _
  | clean => exact cleanup_passes env _

end Functions

/-- Every run of the script, returning or failing, starts ndk-build for a prefix of the passes
its request selects, in order and each once, and a run that returns started them all: `clean`,
`cargo`, `app` and `stub` start none. -/
theorem script_ndk_passes (env : Env) (args : Args) (act : Action) : Passes (main env args act) (mainPasses args act) :=
  (loadConfig_passes env args).bind fun cfg => func_passes env cfg args act

/-- Over any sequence of runs, each on its machine and as its own process, starting from the
world the one before left, the ndk-build passes the log gains are, run by run, a prefix of the
passes that run's request selects. -/
theorem session_ndk_passes (runs : List (Env × Args × Action)) (w : World) :
    ∃ qss : List (List String), List.Forall₂ (fun qs r => qs <+: mainPasses r.2.1 r.2.2) qss runs ∧
      ndkPasses (session runs w).log = ndkPasses w.log ++ qss.flatten := by
  induction runs generalizing w with
  | nil => exact ⟨[], .nil, (List.append_nil _).symm⟩
  | cons r runs ih =>
    have run : Passes (main r.1 r.2.1 r.2.2) (mainPasses r.2.1 r.2.2) :=
      (loadConfig_passes r.1 r.2.1).bind fun cfg => func_passes r.1 cfg r.2.1 r.2.2
    obtain ⟨qs, pre, log, -⟩ := run w
    obtain ⟨qss, all, log'⟩ := ih (final (main r.1 r.2.1 r.2.2 w))
    refine ⟨qs :: qss, .cons pre all, ?_⟩
    rw [show session (r :: runs) w = session runs _ from rfl, log', log, List.flatten_cons, List.append_assoc]

end MagiskBuild
