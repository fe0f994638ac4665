import MagiskBuild.App

/-!
What the runs of build.py do to the directories of the tree. Each call of the script keeps the
directories off what it writes (`KeepsDirs`), stated once per call; every function built from the
calls keeps them too, whether it returns or fails. So once every `native/out/<arch>` exists it
stays over any runs of the actions modelled here, each with its own machine and process, but a
clean with `cpp` and `build.py cargo`, whose command line cargo may take for anything. On a tree
with those directories, `build.py binary busybox` moves what ndk-build built.
-/
namespace MagiskBuild

def CleanKeeps (target : List String) (q : Path) : Prop := ["native"] <+: q ∧ ¬ Cleaned target q

section Java

variable (env : Env) {K : Path → Prop}

theorem javacCmd_keepsDirs {fs fs' : Fs} (h : Cmd.javac.Allows fs fs') : KeepsDirs K fs fs' :=
  .of_iff fun q => by rw [h q]

theorem gradlewCmd_keepsDirs {tasks : List String} {fs fs' : Fs} (hK : ∀ q, K q → ["native"] <+: q)
    (h : (Cmd.gradlew tasks).Allows fs fs') : KeepsDirs K fs fs' :=
  .of_frame (R := fun q => ¬ ["native"] <+: q) (fun q r => h q (not_not.mp r)) fun q hk r => r (hK q hk)

theorem findJdk_dirs : Effect (KeepsDirs K) (findJdk env) := findJdk_effect env fun _ _ => javacCmd_keepsDirs

variable (cfg : Config) (args : Args) (hK : ∀ q, K q → ["native"] <+: q)

include hK

theorem buildApk_dirs {module : String} (hm : module ≠ "native") : Effect (KeepsDirs K) (buildApk env cfg args module) :=
  buildApk_effect env cfg args (fun _ _ => javacCmd_keepsDirs) (fun _ _ => gradlewCmd_keepsDirs hK)
    fun fs q hk d => fs.mv_keeps_dir d (.inl (apkSource_not_native _ hm (hK q hk)))

theorem buildApp_dirs : Effect (KeepsDirs K) (buildApp env cfg args) :=
  (buildApk_dirs env cfg args hK (by decide)).bind fun _ => cp_dirs _ _

end Java

section Clean

variable (env : Env) {K : Path → Prop}

theorem cleanCpp_dirs (hK : ∀ q, K q → ∀ p ∈ cppTrees, ¬ p <+: q) : Effect (KeepsDirs K) cleanCpp :=
  .forM fun p hp => rmRf_dirs fun q hk => hK q hk p hp

theorem cleanRust_dirs (hK : ∀ q, K q → ¬ cargoTree <+: q) : Effect (KeepsDirs K) cleanRust :=
  (rmRf_dirs hK).bind fun _ => (Effect.forM fun p _ => rm_dirs p).bind fun _ =>
    (Effect.of_same fun _ => rfl : Effect (KeepsDirs K) globRsGens).bind fun _ => .forM fun p _ => rm_dirs p

theorem stubAssets_outside {p q : Path} (hp : p ∈ stubAssets) (hq : ["native"] <+: q) : ¬ p <+: q := by
  obtain ⟨t, rfl⟩ := hq
  simp only [stubAssets, List.mem_cons, List.mem_singleton, List.not_mem_nil, or_false] at hp
  rcases hp with rfl | rfl <;> simp

theorem cleanJava_dirs (hK : ∀ q, K q → ["native"] <+: q) : Effect (KeepsDirs K) (cleanJava env) :=
  (findJdk_dirs env).bind fun _ => (execv_effect env fun _ _ => gradlewCmd_keepsDirs hK).bind fun _ =>
    .forM fun _ hp => rmRf_dirs fun q hk => stubAssets_outside hp (hK q hk)

theorem cleanup_dirs (target : List String) : Effect (KeepsDirs (CleanKeeps target)) (cleanup env target) := by
  rw [cleanup_eq]
  exact (Effect.when fun hc => cleanCpp_dirs fun q hk p hp pre => hk.2 (.inl ⟨hc, p, hp, pre⟩)).bind fun _ =>
    (Effect.when fun hr => cleanRust_dirs fun q hk pre => hk.2 (.inr ⟨hr, .inl pre⟩)).bind fun _ =>
      Effect.when fun _ => cleanJava_dirs env fun q hk => hk.1

end Clean

inductive Action where
  | all
  | binary
  | cargo (commands : List String)
  | app
  | stub
  | clean
  deriving DecidableEq, Repr

/-- `args.func(args)`, the function the action's parser sets. `all` has no `target`, which
`build_binary` then sets to the empty list. -/
def Action.func (env : Env) (cfg : Config) (args : Args) : Action → M Unit
  | .all => buildAll env cfg { args with target := [] }
  | .binary => buildBinary env cfg args
  | .cargo commands => runCargoCmd env commands
  | .app => buildApp env cfg args
  | .stub => buildStub env cfg args
  | .clean => cleanup env args.target

/-- The end of build.py: `load_config(args)`, then `args.func(args)`. -/
def main (env : Env) (args : Args) (act : Action) : M Unit := do
  let cfg ← loadConfig env args
  act.func env cfg args

/-- Where a run keeps every directory. `build.py cargo` passes its command line on to cargo,
which may remove anything. -/
def MainKeeps (target : List String) : Action → Path → Prop
  | .all => fun q => BuildKeeps q ∧ ["native"] <+: q
  | .binary => BuildKeeps
  | .cargo _ => fun _ => False
  | .app | .stub => fun q => ["native"] <+: q
  | .clean => CleanKeeps target

section Main

variable (env : Env)

theorem loadConfig_dirs {K : Path → Prop} (args : Args) : Effect (KeepsDirs K) (loadConfig env args) := fun w => by
  rcases loadConfig_final env args w with same | ⟨cfg, fs, hm, h⟩
  · rw [same]
    exact refl_of _ _
  · rw [h]
    exact makedirs_keepsDirs hm

theorem func_dirs (cfg : Config) (args : Args) (act : Action) :
    Effect (KeepsDirs (MainKeeps args.target act)) (act.func env cfg args) := by
  cases act with
  | all =>
    exact ((buildBinary_dirs env cfg _).mono fun _ _ d => d.mono fun _ h => h.1).bind fun _ =>
      buildApp_dirs env cfg _ fun _ h => h.2
  | binary => exact buildBinary_dirs env cfg args
  | cargo => exact fun _ _ h => h.elim
  | app => exact buildApp_dirs env cfg args fun _ h => h
  | stub => exact buildApk_dirs env cfg args (fun _ h => h) (by decide)
  | clean => exact cleanup_dirs env args.target

theorem main_dirs (args : Args) (act : Action) : Effect (KeepsDirs (MainKeeps args.target act)) (main env args act) :=
  (loadConfig_dirs env args).bind fun cfg => func_dirs env cfg args act

end Main

theorem archDir_mainKeeps {target : List String} {act : Action} {arch : String} (ha : arch ∈ archs)
    (noCpp : act = .clean → cleanScope target "cpp" = false) (noCargo : ∀ commands, act ≠ .cargo commands) :
    MainKeeps target act (nativeOut ++ [arch]) := by
  have kept : ∀ a ∈ archs, ¬ (cargoTree <+: nativeOut ++ [a] ∨ nativeOut ++ [a] ∈ protoSources ∨
      rsGenMatch (nativeOut ++ [a])) := by decide
  have native : ["native"] <+: nativeOut ++ [arch] := ⟨["out", arch], rfl⟩
  cases act with
  | all => exact ⟨archDir_buildKeeps arch ha, native⟩
  | binary => exact archDir_buildKeeps arch ha
  | cargo commands => exact absurd rfl (noCargo commands)
  | app | stub => exact native
  | clean =>
    refine ⟨native, ?_⟩
    rintro (⟨cpp, -⟩ | ⟨-, rust⟩)
    · simp [noCpp rfl] at cpp
    · exact kept arch ha rust

/-- The world after the script has run once for each of `runs`, in turn, each on its machine and
as its own process, starting from the world the one before left, whether that one returned or
failed. -/
def session (runs : List (Env × Args × Action)) (w : World) : World :=
  runs.foldl (fun w r => final (main r.1 r.2.1 r.2.2 w)) w

/-- Once every `native/out/<arch>` is a directory, it stays one over any sequence of runs,
returning or failing, none of them `build.py cargo` or a clean with `cpp` in scope. -/
theorem arch_dirs_persist (runs : List (Env × Args × Action)) (w : World) (dirs : ArchDirs w.fs)
    (noCpp : ∀ r ∈ runs, r.2.2 = .clean → cleanScope r.2.1.target "cpp" = false)
    (noCargo : ∀ r ∈ runs, ∀ commands, r.2.2 ≠ .cargo commands) : ArchDirs (session runs w).fs := by
  induction runs generalizing w with
  | nil => exact dirs
  | cons r runs ih =>
    have mem := List.mem_cons_self r runs
    refine ih _ (fun arch ha => ?_) (fun r' h => noCpp r' (List.mem_cons_of_mem r h))
      fun r' h => noCargo r' (List.mem_cons_of_mem r h)
    exact main_dirs r.1 r.2.1 r.2.2 w _ (archDir_mainKeeps ha (noCpp r mem) (noCargo r mem)) (dirs arch ha)

theorem arch_dirs_after_busybox_and_clean :
    ArchDirs (session [(bbEnv, bbArgs, .binary), (bbEnv, { bbArgs with target := ["rust"] }, .clean)]
      ⟨archTree, []⟩).fs :=
  arch_dirs_persist _ ⟨archTree, []⟩ (by decide) (by decide) fun r hr c => by
    simp only [List.mem_cons, List.mem_singleton, List.not_mem_nil, or_false] at hr
    rcases hr with rfl | rfl <;> simp

def NoDeepDirs (fs : Fs) : Prop := ∀ q, nativeOut <+: q → 4 ≤ q.length → fs.get q ≠ some .dir

theorem noDeepDirs_of_entries {fs : Fs} (h : ∀ e ∈ fs.entries, nativeOut <+: e.1 → e.1.length < 4) :
    NoDeepDirs fs := fun q pre len d => by
  have ne : q ≠ [] := by rintro rfl; simp at len
  simp only [Fs.get, lookupAt, ne, if_false] at d
  exact absurd len (Nat.not_le.mpr (h _ (lookup_mem d) pre))

set_option maxRecDepth 4000 in
/-- On a tree where every `native/out/<arch>` is a directory and, as in every reachable tree,
no directory is two levels below `native/out`, `build.py binary busybox` returns, and every
artifact ndk-build left in `native/libs/<arch>` is at `native/out/<arch>/<name>`. ndk-build
ran on the starting tree, changed only below `native/out`. -/
theorem busybox_with_arch_dirs_relocates (env : Env) (cfg : Config) (args : Args) (w : World)
    (request : args.target = ["busybox"]) (ndk : checkNdk env cfg w = .ok () w)
    (src : w.fs.isDir ["native", "src"]) (dirs : ArchDirs w.fs) (deep : NoDeepDirs w.fs)
    (gen : w.fs.get nativeGenPath = none ∨ w.fs.get nativeGenPath = some .dir)
    (flags : w.fs.get flagsPath = none ∨ ∃ b s, w.fs.get flagsPath = some (.file b) ∧ env.codec.decode b = some s)
    (enc : (env.codec.encode (writeNewlines env.isWindows (flagText cfg.version cfg.versionCode args.release))).isSome)
    (built : ∀ fs, ∃ fs', env.toolchain.run (.ndkBuild (ndkFlags "B_BB=1") env.cpuCount) fs = some (0, fs')) :
    ∃ w' fs₀ fs₁, env.toolchain.run (.ndkBuild (ndkFlags "B_BB=1") env.cpuCount) fs₀ = some (0, fs₁) ∧
      (∀ q, ¬ nativeOut <+: q → fs₀.get q = w.fs.get q) ∧ buildBinary env cfg args w = .ok () w' ∧
      ∀ arch ∈ archs, ∀ name ∈ ndkArtifacts, ∀ b, fs₁.get (libsPath arch name) = some (.file b) →
        w'.fs.get (outPath arch name) = some (.file b) ∧ w'.fs.get (libsPath arch name) = none := by
  have native : w.fs.get ["native"] = some .dir :=
    w.fs.prefix_dir (by simpa [Fs.isDir] using src) ⟨["src"], rfl⟩ (by decide)
  have out : w.fs.get nativeOut = some .dir :=
    w.fs.prefix_dir (dirs _ (List.mem_cons_self _ _)) ⟨[_], rfl⟩ (by simp [nativeOut])
  have cargo : runCargoBuild env ["busybox"] args.release args.verbose w = .ok () w :=
    runCargoBuild_of_no_rust (show cargoTargets ["busybox"] = [] by decide) (by simp [Fs.mkdirExistOk, Fs.mkdir, out, Fs.isDir])
  obtain ⟨fs₂, made⟩ := w.fs.makedirsFrom_ok (show w.fs.isDir [] by simp [Fs.isDir])
    fun q (pre : q <+: nativeGenPath) => by
      rcases prefix_nativeGenPath pre with rfl | rfl | rfl | rfl <;> rcases gen with g | g <;> simp_all [Fs.isFile]
  obtain ⟨w₂, header⟩ := dumpFlagHeader_returns made flags enc
  have notGen : ∀ a ∈ archs, a ≠ "generated" := by decide
  have dirs₂ : ArchDirs w₂.fs := fun arch ha =>
    (dumpFlagHeader_frame header (outDir_not_prefix_gen arch ha) (by simp [flagsPath, nativeGenPath, nativeOut])).trans
      (dirs arch ha)
  have slots₂ : ∀ arch ∈ archs, ∀ name ∈ ndkArtifacts, w₂.fs.get (outPath arch name) ≠ some .dir :=
    fun arch ha name _ => by
      rw [dumpFlagHeader_frame header (not_prefix_gen_of_length (by simp [outPath, nativeGenPath, nativeOut]))
        fun e => notGen arch ha (by simp [outPath, flagsPath, nativeGenPath, nativeOut] at e; exact e.1)]
      exact deep _ ⟨[arch, name], rfl⟩ (by simp [outPath, nativeOut])
  have native₂ : w₂.fs.isDir ["native"] := dumpFlagHeader_genDirs header ["native"] ⟨["out", "generated"], rfl⟩
  obtain ⟨fs₃, ran⟩ := built w₂.fs
  obtain ⟨dirs₃, slots₃⟩ := ndkBuild_keeps_slots ran dirs₂ slots₂
  obtain ⟨fs', moved, alone, -⟩ :=
    relocate_places (w := ⟨fs₃, w₂.log ++ [.exec (.ndkBuild (ndkFlags "B_BB=1") env.cpuCount) 0]⟩) dirs₃ slots₃
  refine ⟨⟨fs', w₂.log ++ [.exec (.ndkBuild (ndkFlags "B_BB=1") env.cpuCount) 0]⟩, w₂.fs, fs₃, ran,
    fun q hq => dumpFlagHeader_outside header native hq, ?_, moved_files_of_alone dirs₃ slots₃ alone⟩
  rw [buildBinary, bind_ok ndk, request]
  simp only [show selectTargets ["busybox"] = some ["busybox"] by decide, buildTargets_busybox]
  rw [bind_ok (chdir_ok w src), bind_ok cargo, bind_ok header, runNdkBuild_of_built native₂ ran]
  exact moved

set_option maxRecDepth 4000 in
theorem busybox_with_arch_dirs_sample :
    ∃ w', buildBinary bbEnv bbConfig bbArgs ⟨archTree, []⟩ = .ok () w' ∧
      ∀ arch ∈ archs, w'.fs.isFile (outPath arch "busybox") ∧ w'.fs.get (libsPath arch "busybox") = none := by
  obtain ⟨w', fs₀, fs₁, ran, same, run, placed⟩ := busybox_with_arch_dirs_relocates bbEnv bbConfig bbArgs
    ⟨archTree, []⟩ rfl rfl (by decide) (by decide) (noDeepDirs_of_entries (by decide)) (.inl (by decide))
    (.inl (by decide)) (by decide) fun _ => ⟨_, rfl⟩
  have ndk : fs₁ = archs.foldl putBusybox fs₀ := by
    simp only [bbEnv, busyboxToolchain, Option.some.injEq, Prod.mk.injEq] at ran
    exact ran.2.symm
  have slots : ∀ a ∈ archs, archTree.get ["native", "libs", a] = none := by decide
  refine ⟨w', run, fun arch ha => ?_⟩
  have left := foldl_putBusybox_places archs (by decide) (by rw [same _ (by decide)]; rfl)
    (by rw [Fs.isFile, same _ (by decide)]; decide) (fun a ha => by rw [same _ (by simp [nativeOut])]; exact slots a ha)
    arch ha
  rw [← ndk] at left
  obtain ⟨b, hb⟩ := (fs₁.isFile_iff).mp left
  obtain ⟨out, gone⟩ := placed arch ha "busybox" (by decide) b hb
  exact ⟨by simp [Fs.isFile, out], gone⟩

end MagiskBuild
