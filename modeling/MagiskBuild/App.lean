import MagiskBuild.BuildEffects
import MagiskBuild.Cleanup

/-!
The Java side of build.py: `build_apk`, `build_app`, `build_stub` and `build_all`. Gradle is a
program of the toolchain that changes nothing below `native`; the search path `find_jdk` builds
is not modelled, and the configuration file is passed as its path below the repository root
(`resolve()` makes it absolute). An APK gradle did not leave is not an error: `mv` and `cp`
swallow every exception, so a build fails only in `javac` or in gradle, each with its message.
A returning `build_app` leaves the APK and the stub in the output directory, and the app half of
`build_all` changes nothing in `native` but those two files.
-/
namespace MagiskBuild

def lower (s : String) : String := ⟨s.data.map Char.toLower⟩

def buildType (release : Bool) : String := if release then "Release" else "Debug"

def apkName (module : String) (release : Bool) : String := module ++ "-" ++ lower (buildType release) ++ ".apk"

def apkSource (module : String) (release : Bool) : Path :=
  [module, "build", "outputs", "apk", lower (buildType release), apkName module release]

def apkTarget (cfg : Config) (module : String) (release : Bool) : Path := cfg.outdir ++ [apkName module release]

def stubType (release : Bool) : String := if release then "release" else "debug"

def stubName (release : Bool) : String := "stub-" ++ stubType release ++ ".apk"

def stubSource (release : Bool) : Path := ["app", "src", stubType release, "assets", "stub.apk"]

def stubTarget (cfg : Config) (release : Bool) : Path := cfg.outdir ++ [stubName release]

def gradleTasks (module : String) (args : Args) : List String :=
  [module ++ ":assemble" ++ buildType args.release, "-PconfigPath=" ++ "/".intercalate (toPath args.config)]

section Java

variable (env : Env)

def buildApk (cfg : Config) (args : Args) (module : String) : M Unit := do
  findJdk env
  let st ← execv env (.gradlew (gradleTasks module args))
  if st ≠ 0 then error ("Build " ++ module ++ " failed!") else pure ()
  mv (apkSource module args.release) (apkTarget cfg module args.release)

/-- `build_app`: the app, then the stub APK its build left in the app's assets. -/
def buildApp (cfg : Config) (args : Args) : M Unit := do
  buildApk env cfg args "app"
  cp (stubSource args.release) (stubTarget cfg args.release)

def buildStub (cfg : Config) (args : Args) : M Unit := buildApk env cfg args "stub"

def buildAll (cfg : Config) (args : Args) : M Unit := do
  buildBinary env cfg args
  buildApp env cfg args

end Java

section Effects

variable (env : Env) {R : Fs → Fs → Prop} [IsRefl Fs R]

theorem findJdk_effect (h : ∀ fs fs', Cmd.javac.Allows fs fs' → R fs fs') : Effect R (findJdk env) := fun w => by
  have javac := execv_effect env h w
  unfold findJdk
  split <;> rename_i hrun <;> rw [hrun] at javac
  · split <;> exact javac
  · exact javac

variable [IsTrans Fs R] (cfg : Config) (args : Args)

theorem buildApk_effect {module : String} (jdk : ∀ fs fs', Cmd.javac.Allows fs fs' → R fs fs')
    (gradle : ∀ fs fs', (Cmd.gradlew (gradleTasks module args)).Allows fs fs' → R fs fs')
    (moved : ∀ fs, R fs (fs.mv (apkSource module args.release) (apkTarget cfg module args.release))) :
    Effect R (buildApk env cfg args module) :=
  (findJdk_effect env jdk).bind fun _ => (execv_effect env gradle).bind fun _ =>
    Effect.ite_bind (.error _) (.pure ()) fun _ => mv_effect moved

theorem buildApp_effect (jdk : ∀ fs fs', Cmd.javac.Allows fs fs' → R fs fs')
    (gradle : ∀ fs fs', (Cmd.gradlew (gradleTasks "app" args)).Allows fs fs' → R fs fs')
    (moved : ∀ fs, R fs (fs.mv (apkSource "app" args.release) (apkTarget cfg "app" args.release)))
    (copied : ∀ fs, R fs (fs.cp (stubSource args.release) (stubTarget cfg args.release))) :
    Effect R (buildApp env cfg args) :=
  (buildApk_effect env cfg args jdk gradle moved).bind fun _ => cp_effect copied

end Effects

/-- The paths below `native` apart from the two targets of `build_app`. -/
def AppFree (cfg : Config) (release : Bool) (q : Path) : Prop :=
  ["native"] <+: q ∧ Apart (apkTarget cfg "app" release) q ∧ q ≠ stubTarget cfg release

theorem apkSource_not_native {module : String} (release : Bool) {q : Path} (hm : module ≠ "native")
    (hq : ["native"] <+: q) : ¬ apkSource module release <+: q := fun pre => by
  obtain ⟨t, rfl⟩ := hq
  exact hm (List.cons_prefix_cons.mp pre).1

theorem buildApp_untouched (env : Env) (cfg : Config) (args : Args) :
    Effect (Frame (AppFree cfg args.release)) (buildApp env cfg args) :=
  buildApp_effect env cfg args (fun _ _ h q _ => h q) (fun _ _ h q hq => h q hq.1)
    (fun _ => (mv_frame _ _).mono fun _ hq => ⟨apkSource_not_native _ (by decide) hq.1, hq.2.1⟩)
    fun _ => (cp_frame _ _).mono fun _ hq => hq.2.2

section Outputs

variable (env : Env) {w : World}

theorem findJdk_ok {fs₀ : Fs} (h : env.toolchain.run .javac w.fs = some (0, fs₀)) :
    findJdk env w = .ok () { fs := fs₀, log := w.log ++ [.exec .javac 0] } := by
  simp [findJdk, execv, h]

theorem buildApk_ok (cfg : Config) {args : Args} {module : String} {fs₀ fs₁ : Fs}
    (jdk : env.toolchain.run .javac w.fs = some (0, fs₀))
    (gradle : env.toolchain.run (.gradlew (gradleTasks module args)) fs₀ = some (0, fs₁)) :
    ∃ log, buildApk env cfg args module w =
      .ok () { fs := fs₁.mv (apkSource module args.release) (apkTarget cfg module args.release), log } := by
  refine ⟨w.log ++ [.exec .javac 0] ++ [.exec (.gradlew (gradleTasks module args)) 0], ?_⟩
  rw [buildApk, bind_ok (findJdk_ok env jdk), bind_ok (execv_ok env _ gradle)]
  simp only [ne_eq, not_true_eq_false, if_false, bind_apply, pure_apply]
  rfl

end Outputs

/-- The ways `build_apk` stops: `javac -version` cannot start or exits nonzero, or, once it has
exited 0, gradle cannot start or exits nonzero, each with its message. -/
def ApkFailure (env : Env) (args : Args) (module : String) (fs : Fs) (e : Failure) : Prop :=
  (e = .exit jdkMessage ∧ ∀ fs₀, env.toolchain.run .javac fs ≠ some (0, fs₀)) ∨
  ∃ fs₀, env.toolchain.run .javac fs = some (0, fs₀) ∧
    (e = .spawn (.gradlew (gradleTasks module args)) ∧ env.toolchain.run (.gradlew (gradleTasks module args)) fs₀ = none ∨
     ∃ st fs₁, st ≠ 0 ∧ env.toolchain.run (.gradlew (gradleTasks module args)) fs₀ = some (st, fs₁) ∧
       e = .exit ("Build " ++ module ++ " failed!"))

theorem findJdk_result (env : Env) (w : World) :
    (∃ fs₀, env.toolchain.run .javac w.fs = some (0, fs₀) ∧
      findJdk env w = .ok () { fs := fs₀, log := w.log ++ [.exec .javac 0] }) ∨
    ((∀ fs, env.toolchain.run .javac w.fs ≠ some (0, fs)) ∧ ∃ w', findJdk env w = .error (.exit jdkMessage) w') := by
  cases hj : env.toolchain.run .javac w.fs with
  | none => exact .inr ⟨by simp, w, by simp [findJdk, execv, hj, error]⟩
  | some r =>
    obtain ⟨st, fs₀⟩ := r
    by_cases hs : st = 0
    · subst hs
      exact .inl ⟨fs₀, rfl, findJdk_ok env hj⟩
    · exact .inr ⟨by simp [hs], ⟨fs₀, w.log ++ [.exec .javac st]⟩, by simp [findJdk, execv, hj, hs, error]⟩

def gradleFailToolchain : Toolchain where
  run c fs := match c with
    | .gradlew _ => some (1, fs)
    | _ => some (0, fs)
  allows c fs st fs' h := by
    cases c <;> simp only [Option.some.injEq, Prod.mk.injEq] at h <;> obtain ⟨rfl, rfl⟩ := h
    all_goals simp [Cmd.Allows]

def gradleFailEnv : Env := { bbEnv with toolchain := gradleFailToolchain }

theorem stub_names_apart (release : Bool) : ¬ apkSource "app" release <+: stubSource release ∧
    apkName "app" release ∉ stubSource release ∧ stubName release ∉ stubSource release ∧
    apkName "app" release ≠ stubName release := by
  cases release <;> decide

/-- A `build_app` whose JDK check and gradle run exit 0 returns, with the output directory in
place, leaves the APK gradle built and the stub it left in the app's assets at their targets,
each unless its target is a directory. -/
theorem app_build_places (env : Env) (cfg : Config) (args : Args) (w : World) {fs₀ fs₁ : Fs}
    (jdk : env.toolchain.run .javac w.fs = some (0, fs₀))
    (gradle : env.toolchain.run (.gradlew (gradleTasks "app" args)) fs₀ = some (0, fs₁))
    (out : fs₁.get cfg.outdir = some .dir) :
    ∃ w', buildApp env cfg args w = .ok () w' ∧
      (∀ b, fs₁.get (apkSource "app" args.release) = some (.file b) →
        fs₁.get (apkTarget cfg "app" args.release) ≠ some .dir →
        w'.fs.get (apkTarget cfg "app" args.release) = some (.file b)) ∧
      (∀ b, fs₁.get (stubSource args.release) = some (.file b) →
        fs₁.get (stubTarget cfg args.release) ≠ some .dir →
        w'.fs.get (stubTarget cfg args.release) = some (.file b)) := by
  obtain ⟨srcs, apkName_out, stubName_out, names⟩ := stub_names_apart args.release
  obtain ⟨log, apk⟩ := buildApk_ok env cfg jdk gradle
  have targets : ¬ apkTarget cfg "app" args.release <+: stubTarget cfg args.release ∧
      ¬ stubTarget cfg args.release <+: apkTarget cfg "app" args.release := by
    simp [apkTarget, stubTarget, names, Ne.symm names]
  set moved := fs₁.mv (apkSource "app" args.release) (apkTarget cfg "app" args.release) with hmoved
  have outMoved : moved.get cfg.outdir = some .dir := fs₁.mv_keeps_dir out (.inr (List.prefix_append _ _))
  refine ⟨_, by rw [buildApp, bind_ok apk]; rfl, fun b hb hd => ?_, fun b hb hd => ?_⟩
  · rw [show _ = moved.cp _ _ from rfl, moved.cp_get_of_ne fun e => targets.1 (by rw [e])]
    exact fs₁.mv_places hb hd (by simpa [parent, apkTarget] using out)
  · have kept : moved.get (stubSource args.release) = some (.file b) := by
      rw [fs₁.mv_get_of_apart srcs (fun pre => apkName_out (pre.subset (by simp [apkTarget]))) (by simp [hb])]
      exact hb
    have notDir : moved.get (stubTarget cfg args.release) ≠ some .dir := by
      rcases fs₁.mv_get_cases (apkSource "app" args.release) (apkTarget cfg "app" args.release)
        (stubTarget cfg args.release) with e | ⟨-, -, e⟩ | ⟨pre, -⟩ | ⟨pre, -⟩
      · rw [hmoved, e]; exact hd
      · rw [hmoved, e]; simp
      · exact absurd ((fs₁.prefix_realDst _ _).trans pre) targets.1
      · exact absurd pre targets.2
    exact moved.cp_copies kept notDir (by simpa [parent, stubTarget] using outMoved)
      fun e => stubName_out (e ▸ by simp [stubTarget])

def apkTree : Fs where
  entries := [(["out"], .dir), (["app"], .dir), (["app", "build"], .dir), (["app", "build", "outputs"], .dir),
    (["app", "build", "outputs", "apk"], .dir), (["app", "build", "outputs", "apk", "debug"], .dir),
    (["app", "build", "outputs", "apk", "debug", "app-debug.apk"], .file [1]), (["app", "src"], .dir),
    (["app", "src", "debug"], .dir), (["app", "src", "debug", "assets"], .dir),
    (["app", "src", "debug", "assets", "stub.apk"], .file [2])]
  nodup := by decide
  rooted := by decide

theorem app_build_on_apk_tree :
    ∃ w', buildApp bbEnv bbConfig bbArgs ⟨apkTree, []⟩ = .ok () w' ∧
      w'.fs.get (apkTarget bbConfig "app" false) = some (.file [1]) ∧
      w'.fs.get (stubTarget bbConfig false) = some (.file [2]) := by
  obtain ⟨w', run, apk, stub⟩ := app_build_places bbEnv bbConfig bbArgs ⟨apkTree, []⟩ rfl rfl (by decide)
  exact ⟨w', run, apk [1] (by decide) (by decide), stub [2] (by decide) (by decide)⟩

end MagiskBuild
