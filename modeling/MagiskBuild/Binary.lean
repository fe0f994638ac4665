import MagiskBuild.Headers

/-!
`build_binary` and the two build families it drives. cargo builds each selected Rust target for
each architecture below `native/src/target`, and `run_cargo_build` moves the archives into
`native/out/<arch>`, creating those directories: nothing else does. ndk-build builds below
`native/libs`, and `run_ndk_build` moves every known artifact of every architecture into
`native/out/<arch>`. `mv` swallows its failure, so an artifact whose directory is missing stays
where ndk-build left it. The working directory changes of the script are resolved into the paths.
-/
namespace MagiskBuild

def nativeOut : Path := ["native", "out"]

def outPath (arch name : String) : Path := nativeOut ++ [arch, name]

def libsPath (arch name : String) : Path := ["native", "libs", arch, name]

def ndkArtifacts : List String := supportTargets ++ ["libinit-ld.so"]

/-- The Rust targets of a request: `set(args.target) & set(rust_targets)`, with magisk when
resetprop is asked for. -/
def cargoTargets (target : List String) : List String :=
  rustTargets.filter fun t => target.contains t || (t == "magisk" && target.contains "resetprop")

def rustTriple (triple : String) : String :=
  if "armv7".toList.isPrefixOf triple.toList then "thumbv7neon-linux-androideabi" else triple

def rustOut (release : Bool) : String := if release then "release" else "debug"

def cargoLib (triple profile target : String) : Path := cargoTree ++ [triple, profile, "lib" ++ target ++ ".a"]

def rsLib (arch target : String) : Path := nativeOut ++ [arch, "lib" ++ target ++ "-rs.a"]

def ndkFlags (flags : String) : String := "NDK_PROJECT_PATH=. NDK_APPLICATION_MK=src/Application.mk " ++ flags

/-- `args.target` as `build_binary` narrows it; `none` when nothing known is asked for. -/
def selectTargets (target : List String) : Option (List String) :=
  if target = [] then some defaultTargets
  else
    let selected := supportTargets.filter target.contains
    if selected = [] then none else some selected

def firstFlags (ts : List String) : String :=
  (if ts.contains "magisk" then " B_MAGISK=1" else "") ++
  (if ts.contains "magiskpolicy" then " B_POLICY=1" else "") ++
  (if ts.contains "magiskinit" then " B_PRELOAD=1" else "") ++
  (if ts.contains "resetprop" then " B_PROP=1" else "")

def secondFlags (ts : List String) : String :=
  (if ts.contains "magiskinit" then " B_INIT=1" else "") ++
  (if ts.contains "magiskboot" then " B_BOOT=1" else "")

def elfCleanerFiles : List Path := archs.flatMap fun arch => [outPath arch "magisk", outPath arch "magiskpolicy"]

section Build

variable (env : Env)

def runCargo (cmds : List String) : M Nat := execv env (.cargo cmds (min 8 env.cpuCount))

def cargoCommands : List String → List String
  | "--" :: cmds => cmds
  | cmds => cmds

def runCargoCmd (commands : List String) : M Unit := do
  chdir ["native", "src"]
  let _ ← runCargo env (cargoCommands commands)
  pure ()

def cargoArch (targets : List String) (release verbose : Bool) (arch triple : String) : M Unit := do
  targets.forM fun t => do
    let st ← runCargo env (cargoArgs release verbose t (rustTriple triple))
    if st ≠ 0 then error "Build binary failed!" else pure ()
  mkdirExistOk (nativeOut ++ [arch])
  targets.forM fun t => mv (cargoLib (rustTriple triple) (rustOut release) t) (rsLib arch t)

def runCargoBuild (target : List String) (release verbose : Bool) : M Unit := do
  mkdirExistOk nativeOut
  let targets := env.setOrder.order (cargoTargets target)
  if targets = [] then pure ()
  else (archs.zip triples).forM fun pair => cargoArch env targets release verbose pair.1 pair.2

def relocate : M Unit :=
  archs.forM fun arch => ndkArtifacts.forM fun tgt => mv (libsPath arch tgt) (outPath arch tgt)

def runNdkBuild (flags : String) : M Unit := do
  chdir ["native"]
  let st ← execv env (.ndkBuild (ndkFlags flags) env.cpuCount)
  if st ≠ 0 then error "Build binary failed!" else pure ()
  relocate

/-- `elf_cleaner`: the bundled one on Windows, else built into `native/out` when missing. -/
def elfCleaner : M Path :=
  if env.isWindows then pure ["tools", "elf-cleaner.exe"]
  else do
    let built ← pathExists (nativeOut ++ ["elf-cleaner"])
    if built then pure () else do
      let _ ← execv env (.gcc (nativeOut ++ ["elf-cleaner"]))
      pure ()
    pure (nativeOut ++ ["elf-cleaner"])

def cleanElf : M Unit := do
  let exe ← elfCleaner env
  let _ ← execv env (.elfCleaner exe ["--api-level", "23"] elfCleanerFiles)
  pure ()

/-- The NDK check of `build_binary`: an exception while reading the version file and a
mismatch end the same way. -/
def checkNdk (cfg : Config) : M Unit := fun w =>
  match readText env (env.ndkPath ++ ["ONDK_VERSION"]) w with
  | .ok s w' =>
    if some (strip lineSpace s) = cfg.props.lookup "ondkVersion".toList then .ok () w'
    else error "Unmatched NDK. Please install/upgrade NDK with \"build.py ndk\"" w'
  | .error _ w' => error "Unmatched NDK. Please install/upgrade NDK with \"build.py ndk\"" w'

def buildTargets (cfg : Config) (release verbose : Bool) (ts : List String) : M Unit := do
  chdir ["native", "src"]
  runCargoBuild env ts release verbose
  dumpFlagHeader env cfg release
  if firstFlags ts ≠ "" then runNdkBuild env (firstFlags ts) else pure ()
  if ts.contains "magiskinit" then dumpBinHeader env else pure ()
  if secondFlags ts ≠ "" then runNdkBuild env (secondFlags ts ++ " B_CRT0=1") else pure ()
  if ts.contains "magisk" || ts.contains "magiskpolicy" then cleanElf env else pure ()
  if ts.contains "busybox" then runNdkBuild env "B_BB=1" else pure ()

def buildBinary (cfg : Config) (args : Args) : M Unit := do
  checkNdk env cfg
  match selectTargets args.target with
  | none => pure ()
  | some ts => buildTargets env cfg args.release args.verbose ts

end Build

theorem prefix_nativeGenPath {q : Path} (h : q <+: nativeGenPath) :
    q = [] ∨ q = ["native"] ∨ q = nativeOut ∨ q = nativeGenPath := by
  obtain ⟨t, ht⟩ := h
  rcases q with _ | ⟨a, _ | ⟨b, _ | ⟨c, _ | ⟨d, q⟩⟩⟩⟩ <;> simp_all [nativeGenPath, nativeOut]

theorem outDir_not_prefix_gen : ∀ arch ∈ archs, ¬ nativeOut ++ [arch] <+: nativeGenPath := by decide

theorem setOrder_nil (o : SetOrder) : o.order [] = [] :=
  List.eq_nil_iff_forall_not_mem.mpr fun x hx => by simpa using (o.mem [] x).mp hx

/-- ndk-build makes no directory where `run_ndk_build` takes an artifact from. -/
def NdkFiles (env : Env) : Prop :=
  ∀ flags jobs fs st fs', env.toolchain.run (.ndkBuild flags jobs) fs = some (st, fs') →
    ∀ arch ∈ archs, ∀ name ∈ ndkArtifacts, fs'.get (libsPath arch name) = some .dir →
      fs.get (libsPath arch name) = some .dir

section Runs

variable {env : Env} {w : World}

theorem forM_mv_of_absent {arch : String} (h : w.fs.get (nativeOut ++ [arch]) = none) {names : List String}
    (libs : ∀ tgt ∈ names, w.fs.get (libsPath arch tgt) ≠ some .dir) :
    (names.forM fun tgt => mv (libsPath arch tgt) (outPath arch tgt)) w = .ok () w := by
  induction names with
  | nil => rfl
  | cons n names ih =>
    have below : w.fs.get (outPath arch n) = none := w.fs.get_below_missing h ⟨[n], by simp [outPath]⟩
    have up : parent (outPath arch n) = nativeOut ++ [arch] := by simp [parent, outPath, nativeOut]
    have same : w.fs.mv (libsPath arch n) (outPath arch n) = w.fs :=
      w.fs.mv_of_no_dir (libs n (List.mem_cons_self n names)) (by simp [below]) (by simp [up, h])
    rw [forM_cons, bind_ok (by rw [mv_apply, same])]
    exact ih fun t ht => libs t (List.mem_cons_of_mem n ht)

theorem relocate_of_absent (h : ∀ arch ∈ archs, w.fs.get (nativeOut ++ [arch]) = none)
    (libs : ∀ arch ∈ archs, ∀ name ∈ ndkArtifacts, w.fs.get (libsPath arch name) ≠ some .dir) :
    relocate w = .ok () w := by
  unfold relocate
  generalize archs = as at h libs ⊢
  induction as with
  | nil => rfl
  | cons a as ih =>
    rw [forM_cons, bind_ok (forM_mv_of_absent (h a (List.mem_cons_self a as)) (libs a (List.mem_cons_self a as)))]
    exact ih (fun b hb => h b (List.mem_cons_of_mem a hb)) fun b hb => libs b (List.mem_cons_of_mem a hb)

theorem ndkBuild_keeps_out {flags : String} {jobs : Nat} {fs fs' : Fs}
    (h : env.toolchain.run (.ndkBuild flags jobs) fs = some (0, fs')) {q : Path} (hq : nativeOut <+: q) :
    fs'.get q = fs.get q :=
  env.toolchain.allows _ _ _ _ h q (fun pre => absurd (List.prefix_of_prefix_length_le pre hq le_rfl) (by decide))
    (fun pre => absurd (List.prefix_of_prefix_length_le pre hq le_rfl) (by decide))

theorem runNdkBuild_of_built {flags : String} (hnative : w.fs.isDir ["native"]) {fs : Fs}
    (run : env.toolchain.run (.ndkBuild (ndkFlags flags) env.cpuCount) w.fs = some (0, fs)) :
    runNdkBuild env flags w = relocate ⟨fs, w.log ++ [.exec (.ndkBuild (ndkFlags flags) env.cpuCount) 0]⟩ := by
  rw [runNdkBuild, bind_ok (chdir_ok w hnative), bind_ok (execv_ok env w run)]
  simp only [ne_eq, not_true_eq_false, if_false, bind_apply, pure_apply]

theorem runNdkBuild_of_absent {flags : String} (hnative : w.fs.isDir ["native"]) {fs : Fs}
    (run : env.toolchain.run (.ndkBuild (ndkFlags flags) env.cpuCount) w.fs = some (0, fs))
    (absent : ∀ arch ∈ archs, w.fs.get (nativeOut ++ [arch]) = none)
    (libs : ∀ arch ∈ archs, ∀ name ∈ ndkArtifacts, fs.get (libsPath arch name) ≠ some .dir) :
    runNdkBuild env flags w = .ok () ⟨fs, w.log ++ [.exec (.ndkBuild (ndkFlags flags) env.cpuCount) 0]⟩ := by
  rw [runNdkBuild_of_built hnative run]
  exact relocate_of_absent (fun arch ha => (ndkBuild_keeps_out run ⟨[arch], rfl⟩).trans (absent arch ha)) libs

theorem runCargoBuild_of_no_rust {target : List String} (noRust : cargoTargets target = []) {release verbose : Bool}
    {fs : Fs} (h : w.fs.mkdirExistOk nativeOut = .ok fs) :
    runCargoBuild env target release verbose w = .ok () { w with fs } := by
  rw [runCargoBuild, bind_ok (mkdirExistOk_ok w h)]
  simp [noRust, setOrder_nil]

end Runs

theorem buildTargets_busybox (env : Env) (cfg : Config) (release verbose : Bool) :
    buildTargets env cfg release verbose ["busybox"] = (do
      chdir ["native", "src"]
      runCargoBuild env ["busybox"] release verbose
      dumpFlagHeader env cfg release
      runNdkBuild env "B_BB=1") := by
  simp [buildTargets, show firstFlags ["busybox"] = "" by decide, show secondFlags ["busybox"] = "" by decide]

def NoArchDirs (w₀ w : World) : Prop :=
  w.fs.isDir ["native"] ∧ (∀ arch ∈ archs, w.fs.get (nativeOut ++ [arch]) = none) ∧
    ∀ q, ¬ nativeOut <+: q → w.fs.get q = w₀.fs.get q

section Fresh

variable {env : Env} {w : World}

variable (env) in
theorem runCargoBuild_fresh {target : List String} (noRust : cargoTargets target = []) (release verbose : Bool)
    (native : w.fs.get ["native"] = some .dir) (fresh : w.fs.get nativeOut = none) :
    ∃ w₁, runCargoBuild env target release verbose w = .ok () w₁ ∧ NoArchDirs w w₁ ∧
      w₁.fs.get nativeOut = some .dir ∧ w₁.fs.get nativeGenPath = none ∧ w₁.fs.get flagsPath = none := by
  obtain ⟨fs₁, made⟩ := w.fs.mkdir_ok fresh (by simpa [parent, nativeOut] using native)
  have get₁ := w.fs.get_of_mkdir made
  have genNone : w.fs.get nativeGenPath = none := w.fs.get_below_missing fresh ⟨["generated"], rfl⟩
  refine ⟨{ w with fs := fs₁ }, runCargoBuild_of_no_rust noRust (by simp [Fs.mkdirExistOk, made]),
    ⟨by simp [Fs.isDir, get₁, native, nativeOut], fun arch _ => ?_, fun q hq => ?_⟩, by simp [get₁], ?_, ?_⟩
  · rw [get₁, if_neg (by simp [nativeOut])]
    exact w.fs.get_below_missing fresh ⟨[arch], rfl⟩
  · rw [get₁, if_neg (by rintro rfl; exact hq (List.prefix_refl _))]
  · rw [get₁, if_neg (by decide), genNone]
  · rw [get₁, if_neg (by decide)]
    exact w.fs.get_below_missing genNone (⟨["flags.h"], rfl⟩ : nativeGenPath <+: flagsPath)

theorem dumpFlagHeader_outside {cfg : Config} {release : Bool} {w' : World}
    (h : dumpFlagHeader env cfg release w = .ok () w') (native : w.fs.get ["native"] = some .dir) {q : Path}
    (hq : ¬ nativeOut <+: q) : w'.fs.get q = w.fs.get q := by
  by_cases pre : q <+: nativeGenPath
  · rcases prefix_nativeGenPath pre with rfl | rfl | rfl | rfl
    · simp
    · have d' : w'.fs.get ["native"] = some .dir := by
        simpa [Fs.isDir] using dumpFlagHeader_genDirs h ["native"] ⟨["out", "generated"], rfl⟩
      rw [d', native]
    all_goals exact absurd ⟨_, rfl⟩ hq
  · exact dumpFlagHeader_frame h pre fun e => hq (e ▸ ⟨["generated", "flags.h"], rfl⟩)

theorem dumpFlagHeader_fresh {w₀ : World} {cfg : Config} {release : Bool} (before : NoArchDirs w₀ w)
    (out : w.fs.get nativeOut = some .dir) (gen : w.fs.get nativeGenPath = none) (flags : w.fs.get flagsPath = none)
    (enc : (env.codec.encode (writeNewlines env.isWindows (flagText cfg.version cfg.versionCode release))).isSome) :
    ∃ w₂, dumpFlagHeader env cfg release w = .ok () w₂ ∧ NoArchDirs w₀ w₂ := by
  obtain ⟨native, absent, same⟩ := before
  obtain ⟨fs₂, dirs⟩ := w.fs.makedirsFrom_ok (show w.fs.isDir [] by simp [Fs.isDir])
    fun q (pre : q <+: nativeGenPath) => by
      rcases prefix_nativeGenPath pre with rfl | rfl | rfl | rfl <;>
        simp_all [Fs.isFile, Fs.isDir]
  obtain ⟨w₂, h⟩ := dumpFlagHeader_returns dirs (.inl flags) enc
  refine ⟨w₂, h, dumpFlagHeader_genDirs h ["native"] ⟨["out", "generated"], rfl⟩, fun arch ha => ?_, fun q hq => ?_⟩
  · rw [dumpFlagHeader_frame h (outDir_not_prefix_gen arch ha) (by simp [flagsPath, nativeGenPath, nativeOut])]
    exact absent arch ha
  · exact (dumpFlagHeader_outside h (by simpa [Fs.isDir] using native) hq).trans (same q hq)

end Fresh

/-- From a tree with no `native/out`, as a fresh checkout has, `build.py binary busybox`
returns, and it ends in exactly the tree ndk-build left, where no `native/out/<arch>/<name>`
exists: whatever ndk-build left in `native/libs` is still there. ndk-build ran on the starting
tree, changed only below `native/out`. Only `run_cargo_build` creates the architecture
directories, and it returns before doing so when no Rust target is asked for; a directory
artifact would make one as it moves, so none is in the tree and ndk-build makes none. -/
theorem busybox_only_strands_artifacts (env : Env) (cfg : Config) (args : Args) (w : World)
    (request : args.target = ["busybox"]) (ndk : checkNdk env cfg w = .ok () w)
    (src : w.fs.isDir ["native", "src"]) (fresh : w.fs.get nativeOut = none)
    (libs : ∀ arch ∈ archs, ∀ name ∈ ndkArtifacts, w.fs.get (libsPath arch name) ≠ some .dir) (files : NdkFiles env)
    (enc : (env.codec.encode (writeNewlines env.isWindows (flagText cfg.version cfg.versionCode args.release))).isSome)
    (built : ∀ fs, ∃ fs', env.toolchain.run (.ndkBuild (ndkFlags "B_BB=1") env.cpuCount) fs = some (0, fs')) :
    ∃ w' fs₀, env.toolchain.run (.ndkBuild (ndkFlags "B_BB=1") env.cpuCount) fs₀ = some (0, w'.fs) ∧
      (∀ q, ¬ nativeOut <+: q → fs₀.get q = w.fs.get q) ∧
      buildBinary env cfg args w = .ok () w' ∧ ∀ arch ∈ archs, ∀ name, w'.fs.get (outPath arch name) = none := by
  have native : w.fs.get ["native"] = some .dir :=
    w.fs.prefix_dir (by simpa [Fs.isDir] using src) ⟨["src"], rfl⟩ (by decide)
  obtain ⟨w₁, cargo, before₁, out, gen, flags⟩ :=
    runCargoBuild_fresh env (show cargoTargets ["busybox"] = [] by decide) args.release args.verbose native fresh
  obtain ⟨w₂, header, native₂, absent, same⟩ := dumpFlagHeader_fresh before₁ out gen flags enc
  obtain ⟨fs₃, ran⟩ := built w₂.fs
  have libs₃ : ∀ arch ∈ archs, ∀ name ∈ ndkArtifacts, fs₃.get (libsPath arch name) ≠ some .dir :=
    fun arch ha name hn d => libs arch ha name hn <| by
      rw [← same _ (by simp [libsPath, nativeOut])]
      exact files _ _ _ _ _ ran arch ha name hn d
  refine ⟨⟨fs₃, w₂.log ++ [.exec (.ndkBuild (ndkFlags "B_BB=1") env.cpuCount) 0]⟩, w₂.fs, ran, same, ?_,
    fun arch ha name => ?_⟩
  · rw [buildBinary, bind_ok ndk, request]
    simp only [show selectTargets ["busybox"] = some ["busybox"] by decide, buildTargets_busybox]
    rw [bind_ok (chdir_ok w src), bind_ok cargo, bind_ok header]
    exact runNdkBuild_of_absent native₂ ran absent libs₃
  · exact fs₃.get_below_missing ((ndkBuild_keeps_out ran ⟨[arch], rfl⟩).trans (absent arch ha)) ⟨[name], by simp [outPath]⟩

def putBusybox (fs : Fs) (arch : String) : Fs :=
  if fs.isDir ["native"] then
    match fs.makedirsFrom ["native"] ["libs", arch] with
    | .ok fs' => match fs'.write (libsPath arch "busybox") [0x7f, 0x45, 0x4c, 0x46] with
      | .ok fs'' => fs''
      | .error _ => fs
    | .error _ => fs
  else fs

theorem putBusybox_frame (fs : Fs) (arch : String) {q : Path}
    (hq : ¬ (["native", "libs"] <+: q ∧ q <+: libsPath arch "busybox")) : (putBusybox fs arch).get q = fs.get q := by
  unfold putBusybox
  split
  · rename_i native
    split
    · rename_i fs' made
      split
      · rename_i fs'' written
        rw [fs'.get_of_write written, if_neg (by rintro rfl; exact hq ⟨⟨[arch, "busybox"], rfl⟩, List.prefix_refl _⟩)]
        rcases (fs.makedirsFrom_spec native made).2 q with e | ⟨r, pre, rfl, hnone, -⟩
        · exact e
        · rcases r with _ | ⟨c, r⟩
          · simp [Fs.isDir] at native; simp [native] at hnone
          · obtain ⟨rfl, pre⟩ := List.cons_prefix_cons.mp pre
            exact absurd ⟨⟨r, rfl⟩, by simpa [libsPath] using pre.trans ⟨["busybox"], rfl⟩⟩ hq
      · rfl
    · rfl
  · rfl

theorem foldl_putBusybox_frame (as : List String) (fs : Fs) {q : Path}
    (hq : ∀ a ∈ as, ¬ (["native", "libs"] <+: q ∧ q <+: libsPath a "busybox")) :
    (as.foldl putBusybox fs).get q = fs.get q := by
  induction as generalizing fs with
  | nil => rfl
  | cons a as ih =>
    rw [List.foldl_cons, ih _ fun b hb => hq b (List.mem_cons_of_mem a hb),
      putBusybox_frame fs a (hq a (List.mem_cons_self a as))]

theorem putBusybox_places {fs : Fs} {arch : String} (native : fs.get ["native"] = some .dir)
    (libs : ¬ fs.isFile ["native", "libs"]) (slot : fs.get ["native", "libs", arch] = none) :
    (putBusybox fs arch).isFile (libsPath arch "busybox") ∧ ¬ (putBusybox fs arch).isFile ["native", "libs"] := by
  have hnative : fs.isDir ["native"] := by simp [Fs.isDir, native]
  obtain ⟨fs', made⟩ := fs.makedirsFrom_ok hnative fun q (⟨t, ht⟩ : q <+: ["libs", arch]) => by
    rcases q with _ | ⟨c, _ | ⟨d, _ | ⟨e, q⟩⟩⟩ <;> simp_all [Fs.isFile]
  obtain ⟨dirs, frame⟩ := fs.makedirsFrom_spec hnative made
  have hpar : fs'.get (parent (libsPath arch "busybox")) = some .dir := by
    simpa [Fs.isDir, parent, libsPath] using dirs ["libs", arch] (List.prefix_refl _)
  have hslot : fs'.get (libsPath arch "busybox") ≠ some .dir := by
    rcases frame (libsPath arch "busybox") with e | ⟨q, pre, e, -⟩
    · simp [e, fs.get_below_missing slot (⟨["busybox"], rfl⟩ : ["native", "libs", arch] <+: libsPath arch "busybox")]
    · have := congrArg List.length e
      have := pre.length_le
      simp [libsPath] at *
      omega
  obtain ⟨fs'', written⟩ := fs'.write_ok [0x7f, 0x45, 0x4c, 0x46] hslot hpar
  have result : putBusybox fs arch = fs'' := by simp [putBusybox, hnative, made, written]
  rw [result]
  refine ⟨by simp [Fs.isFile, fs'.get_of_write written], ?_⟩
  have libsDir : fs'.isDir ["native", "libs"] := dirs ["libs"] ⟨[arch], rfl⟩
  simp only [Fs.isDir, decide_eq_true_eq] at libsDir
  simp [Fs.isFile, fs'.get_of_write written, libsPath, libsDir]

theorem foldl_putBusybox_places (as : List String) (nd : as.Nodup) {fs : Fs} (native : fs.get ["native"] = some .dir)
    (libs : ¬ fs.isFile ["native", "libs"]) (slots : ∀ a ∈ as, fs.get ["native", "libs", a] = none) :
    ∀ a ∈ as, (as.foldl putBusybox fs).isFile (libsPath a "busybox") := by
  induction as generalizing fs with
  | nil => simp
  | cons a as ih =>
    obtain ⟨fresh, nd⟩ := List.nodup_cons.mp nd
    obtain ⟨placed, libs₁⟩ := putBusybox_places native libs (slots a (List.mem_cons_self a as))
    have keep : ∀ b ∈ as, (putBusybox fs a).get ["native", "libs", b] = fs.get ["native", "libs", b] :=
      fun b hb => putBusybox_frame fs a fun ⟨_, pre⟩ => fresh (by
        have := (List.prefix_cons_inj _).mp ((List.prefix_cons_inj _).mp pre)
        simp_all)
    have rest := ih nd (by rw [putBusybox_frame fs a (by simp [libsPath]), native]) libs₁
      fun b hb => (keep b hb).trans (slots b (List.mem_cons_of_mem a hb))
    have others : ∀ c ∈ as, ¬ (["native", "libs"] <+: libsPath a "busybox" ∧
        libsPath a "busybox" <+: libsPath c "busybox") := fun c hc ⟨_, pre⟩ => by
      have e := pre.eq_of_length (by simp [libsPath])
      simp only [libsPath, List.cons.injEq, and_true, true_and] at e
      exact fresh (e ▸ hc)
    rintro b (_ | ⟨_, hb⟩)
    · rw [List.foldl_cons, Fs.isFile, foldl_putBusybox_frame as _ others]
      exact placed
    · exact rest b hb

def busyboxToolchain : Toolchain where
  run c fs := match c with
    | .ndkBuild .. => some (0, archs.foldl putBusybox fs)
    | _ => some (0, fs)
  allows c fs st fs' h := by
    cases c <;> simp only [Option.some.injEq, Prod.mk.injEq] at h <;> obtain ⟨rfl, rfl⟩ := h
    case ndkBuild => exact fun q hq _ => foldl_putBusybox_frame archs fs fun _ _ ⟨pre, _⟩ => hq pre
    all_goals simp [Cmd.Allows]

def bbEnv : Env := { sampleEnv with toolchain := busyboxToolchain }

theorem putBusybox_dir {fs : Fs} {arch : String} {q : Path} (h : (putBusybox fs arch).get q = some .dir) :
    fs.get q = some .dir ∨ q.length ≤ 3 := by
  unfold putBusybox at h
  split at h
  · rename_i native
    split at h
    · rename_i fs' made
      split at h
      · rename_i fs'' written
        rw [fs'.get_of_write written] at h
        split_ifs at h
        · cases h
        rcases (fs.makedirsFrom_spec native made).2 q with e | ⟨r, pre, rfl, -, -⟩
        · exact .inl (e ▸ h)
        · have := pre.length_le
          simp at this ⊢
          omega
      · exact .inl h
    · exact .inl h
  · exact .inl h

theorem foldl_putBusybox_dir (as : List String) {fs : Fs} {q : Path} (h : (as.foldl putBusybox fs).get q = some .dir) :
    fs.get q = some .dir ∨ q.length ≤ 3 := by
  induction as generalizing fs with
  | nil => exact .inl h
  | cons a as ih => exact (ih h).elim putBusybox_dir .inr

theorem bbEnv_ndkFiles : NdkFiles bbEnv := fun _ _ fs _ _ h arch _ name _ d => by
  simp only [bbEnv, busyboxToolchain, Option.some.injEq, Prod.mk.injEq] at h
  obtain ⟨-, rfl⟩ := h
  exact (foldl_putBusybox_dir archs d).resolve_right (by simp [libsPath])

/-- A fresh checkout on the sample machine: `gradle.properties` naming the NDK, the cargo
workspace in `native/src`, no `native/out`, and the NDK. -/
def checkoutTree : Fs where
  entries := [(["gradle.properties"], .file (("magisk.ondkVersion=r27\n".toList).map fun c => c.toNat.toUInt8)),
    (["native"], .dir), (["native", "src"], .dir), (cargoManifest, .file [91, 119, 111, 114, 107, 115, 112, 97, 99, 101, 93, 10]),
    (["sdk"], .dir), (["sdk", "ndk"], .dir), (["sdk", "ndk", "magisk"], .dir),
    (["sdk", "ndk", "magisk", "ONDK_VERSION"], .file [114, 50, 55, 10])]
  nodup := by decide
  rooted := by decide

def bbConfig : Config where
  props := configDefaults bbEnv ++ [("ondkVersion".toList, "r27".toList)]
  versionCode := 1000000
  outdir := ["out"]
  has_version := by decide

def bbArgs : Args := { target := ["busybox"], release := false, verbose := false, config := "config.prop".toList }

set_option maxRecDepth 4000 in
/-- On the sample fresh checkout, `build.py binary busybox` leaves every busybox in
`native/libs/<arch>`, and none in `native/out/<arch>`. -/
theorem busybox_only_fresh_checkout :
    ∃ w', buildBinary bbEnv bbConfig bbArgs ⟨checkoutTree, []⟩ = .ok () w' ∧
      ∀ arch ∈ archs, w'.fs.isFile (libsPath arch "busybox") ∧ w'.fs.get (outPath arch "busybox") = none := by
  obtain ⟨w', fs₀, ran, same, run, out⟩ := busybox_only_strands_artifacts bbEnv bbConfig bbArgs
    ⟨checkoutTree, []⟩ rfl rfl (by decide) (by decide) (by decide) bbEnv_ndkFiles (by decide) fun _ => ⟨_, rfl⟩
  have ndk : w'.fs = archs.foldl putBusybox fs₀ := by
    simp only [bbEnv, busyboxToolchain, Option.some.injEq, Prod.mk.injEq] at ran
    exact ran.2.symm
  have slots : ∀ a ∈ archs, checkoutTree.get ["native", "libs", a] = none := by decide
  refine ⟨w', run, fun arch ha => ⟨?_, out arch ha _⟩⟩
  rw [ndk]
  exact foldl_putBusybox_places archs (by decide) (by rw [same _ (by decide)]; rfl)
    (by rw [Fs.isFile, same _ (by decide)]; decide)
    (fun a ha => by rw [same _ (by simp [nativeOut])]; exact slots a ha) arch ha

end MagiskBuild
