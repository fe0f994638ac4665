import MagiskBuild.Config
import MagiskBuild.BinaryDump
import Mathlib.Data.List.Dedup
import Mathlib.Data.Nat.Digits

/-!
The generated headers: `flags.h` from the configuration, and for each architecture the
compressed preload library as a byte array. `write_if_diff` leaves a file alone when it already
reads back as the new text, and a text with no CR reads back as written: after one call that
returns, the headers are at their fixed point. The call itself can fail, since the text-mode read
raises on a directory or on bytes the locale does not decode.
-/
namespace MagiskBuild

def nativeGenPath : Path := ["native", "out", "generated"]

def flagsPath : Path := nativeGenPath ++ ["flags.h"]

def preloadPath (arch : String) : Path := ["native", "out", arch, "libinit-ld.so"]

def binHeaderPath (arch : String) : Path := nativeGenPath ++ [arch ++ "_binaries.h"]

/-- The text of `flags.h`: the dedented template, then the version, the version code and the
debug flag. -/
def flagText (version : Str) (versionCode : Int) (release : Bool) : Str :=
  String.toList (String.join [
    "#pragma once\n",
    "#define quote(s)            #s\n",
    "#define str(s)              quote(s)\n",
    "#define MAGISK_FULL_VER     MAGISK_VERSION \"(\" str(MAGISK_VER_CODE) \")\"\n",
    "#define NAME_WITH_VER(name) str(name) \" \" MAGISK_FULL_VER\n"]) ++
  "#define MAGISK_VERSION      \"".toList ++ version ++ "\"\n".toList ++
  ("#define MAGISK_VER_CODE     " ++ toString versionCode ++ "\n").toList ++
  ("#define MAGISK_DEBUG        " ++ (if release then "0" else "1") ++ "\n").toList

section Generate

variable (env : Env)

/-- `do_write` of `write_if_diff`: the file is missing, or reads as another text. -/
def differs (p : Path) (text : Str) : M Bool := do
  if (← pathExists p) then
    let orig ← readText env p
    pure (orig != text)
  else pure true

def writeIfDiff (p : Path) (text : Str) : M Unit := do
  let doWrite ← differs env p text
  if doWrite then writeText env p text else pure ()

def dumpFlagHeader (cfg : Config) (release : Bool) : M Unit := do
  makedirs nativeGenPath
  writeIfDiff env flagsPath (flagText cfg.version cfg.versionCode release)

def dumpPreload (arch : String) : M Unit := do
  let src ← readBytes (preloadPath arch)
  writeIfDiff env (binHeaderPath arch) (binaryDump src "init_ld_xz".toList env.xz)

def dumpBinHeader : M Unit := do
  makedirs nativeGenPath
  archs.forM (dumpPreload env)

end Generate

/-- A regular file at `p` that reads back as `text`. -/
def Settled (env : Env) (fs : Fs) (p : Path) (text : Str) : Prop :=
  ∃ b s, fs.get p = some (.file b) ∧ env.codec.decode b = some s ∧ universalNewlines s = text

section WriteIfDiff

variable {env : Env} {w w' : World} {p : Path} {text : Str}

theorem Settled.congr {fs fs' : Fs} (h : Settled env fs p text) (same : fs'.get p = fs.get p) :
    Settled env fs' p text := by
  obtain ⟨b, s, hb, hs, ht⟩ := h
  exact ⟨b, s, same.trans hb, hs, ht⟩

theorem readText_settled (h : Settled env w.fs p text) : readText env p w = .ok text w := by
  obtain ⟨b, s, hb, hs, rfl⟩ := h
  exact readText_file env w hb hs

theorem writeIfDiff_settled (h : Settled env w.fs p text) : writeIfDiff env p text w = .ok () w := by
  have there : w.fs.pathExists p := by
    obtain ⟨b, _, hb, _⟩ := h
    simp [Fs.pathExists, hb]
  simp [writeIfDiff, differs, there, readText_settled h]

theorem writeIfDiff_cases {u : Unit} (h : writeIfDiff env p text w = .ok u w') :
    (Settled env w.fs p text ∧ w' = w) ∨ writeText env p text w = .ok () w' := by
  cases there : w.fs.pathExists p
  · exact .inr (by simpa [writeIfDiff, differs, there] using h)
  · rcases hr : readText env p w with ⟨orig, w₂⟩ | ⟨e, w₂⟩
    · obtain ⟨rfl, b, t, hb, ht, rfl⟩ := readText_eq_ok env w hr
      by_cases same : universalNewlines t = text
      · simp only [writeIfDiff, differs, there, hr, same, bind_apply, pathExists_apply, map_apply,
          if_true, bne_self_eq_false, Bool.false_eq_true, if_false, pure_apply,
          EStateM.Result.ok.injEq] at h
        exact .inl ⟨⟨b, t, hb, ht, same⟩, h.2.symm⟩
      · exact .inr (by simpa [writeIfDiff, differs, there, hr, same] using h)
    · simp [writeIfDiff, differs, there, hr] at h

theorem writeIfDiff_settles (hr : '\r' ∉ text) (h : writeIfDiff env p text w = .ok () w') :
    Settled env w'.fs p text := by
  rcases writeIfDiff_cases h with ⟨settled, rfl⟩ | h
  · exact settled
  · obtain ⟨b, hb, -, get⟩ := writeText_eq_ok env w h
    exact ⟨b, _, by simp [get], env.codec.decode_encode _ _ hb,
      universalNewlines_writeNewlines _ hr⟩

theorem writeIfDiff_frame {u : Unit} (h : writeIfDiff env p text w = .ok u w') {q : Path} (hq : q ≠ p) :
    w'.fs.get q = w.fs.get q := by
  rcases writeIfDiff_cases h with ⟨-, rfl⟩ | h
  · rfl
  · obtain ⟨b, -, -, get⟩ := writeText_eq_ok env w h
    simp [get, hq]

theorem writeIfDiff_returns (hpar : w.fs.get (parent p) = some .dir)
    (hp : w.fs.get p = none ∨ ∃ b s, w.fs.get p = some (.file b) ∧ env.codec.decode b = some s)
    (enc : (env.codec.encode (writeNewlines env.isWindows text)).isSome) :
    ∃ w', writeIfDiff env p text w = .ok () w' := by
  obtain ⟨b, hb⟩ := Option.isSome_iff_exists.mp enc
  have written : w.fs.get p ≠ some .dir → ∃ w', writeText env p text w = .ok () w' := fun nd =>
    let ⟨fs, h, _⟩ := writeText_ok env w nd hpar hb
    ⟨_, h⟩
  rcases hp with hp | ⟨b', s, hb', hs⟩
  · obtain ⟨w', h⟩ := written (by simp [hp])
    exact ⟨w', by simpa [writeIfDiff, differs, Fs.pathExists, hp] using h⟩
  · by_cases same : universalNewlines s = text
    · exact ⟨w, writeIfDiff_settled ⟨b', s, hb', hs, same⟩⟩
    · obtain ⟨w', h⟩ := written (by simp [hb'])
      refine ⟨w', ?_⟩
      simpa [writeIfDiff, differs, Fs.pathExists, hb', readText_file env w hb' hs, same] using h

end WriteIfDiff

theorem digitChar_ne_cr : ∀ d < 10, Nat.digitChar d ≠ '\r' := by decide

theorem cr_not_mem_toDigitsCore (fuel n : Nat) {ds : List Char} (h : '\r' ∉ ds) :
    '\r' ∉ Nat.toDigitsCore 10 fuel n ds := by
  induction fuel generalizing n ds with
  | zero => exact h
  | succ fuel ih =>
    have hd : '\r' ∉ Nat.digitChar (n % 10) :: ds := by
      simp [h, Ne.symm (digitChar_ne_cr _ (Nat.mod_lt n (by decide)))]
    simp only [Nat.toDigitsCore]
    split
    · exact hd
    · exact ih _ hd

theorem cr_not_mem_toString_int (n : Int) : '\r' ∉ (toString n).toList := by
  have nat : ∀ m : Nat, '\r' ∉ (toString m).toList := fun m =>
    cr_not_mem_toDigitsCore (m + 1) m (List.not_mem_nil _)
  cases n with
  | ofNat m => exact nat m
  | negSucc m =>
    show '\r' ∉ ("-" ++ toString (m + 1)).toList
    simpa using nat (m + 1)

theorem cr_not_mem_flagText {version : Str} (h : '\r' ∉ version) (versionCode : Int) (release : Bool) :
    '\r' ∉ flagText version versionCode release := by
  have code := cr_not_mem_toString_int versionCode
  have debug : '\r' ∉ (if release then "0" else "1").toList := by cases release <;> decide
  simp only [flagText, String.toList, String.data_append, List.mem_append, not_or] at code debug ⊢
  exact ⟨⟨⟨⟨⟨by decide, by decide⟩, h⟩, by decide⟩, ⟨⟨by decide, code⟩, by decide⟩⟩,
    ⟨⟨by decide, debug⟩, by decide⟩⟩

def GenDirs (fs : Fs) : Prop := ∀ q, q <+: nativeGenPath → fs.isDir q

theorem not_prefix_gen_of_length {q : Path} (h : nativeGenPath.length < q.length) : ¬ q <+: nativeGenPath :=
  fun pre => absurd pre.length_le (by omega)

theorem makedirs_gen {fs fs' : Fs} (h : fs.makedirs nativeGenPath = .ok fs') :
    GenDirs fs' ∧ ∀ q, nativeGenPath.length < q.length → fs'.get q = fs.get q := by
  obtain ⟨dirs, frame⟩ := fs.makedirs_spec h
  refine ⟨dirs, fun q long => ?_⟩
  rcases frame q with e | ⟨pre, -⟩
  · exact e
  · exact absurd pre (not_prefix_gen_of_length long)

theorem GenDirs.congr {fs fs' : Fs} (h : GenDirs fs) (same : ∀ q, q <+: nativeGenPath → fs'.get q = fs.get q) :
    GenDirs fs' := fun q pre => by simpa [Fs.isDir, same q pre] using h q pre

theorem makedirs_of_genDirs {w : World} (h : GenDirs w.fs) : makedirs nativeGenPath w = .ok () w :=
  liftFs_ok w (w.fs.makedirs_of_dirs h)

section Flags

variable {env : Env} {cfg : Config} {release : Bool} {w w' : World}

theorem dumpFlagHeader_cases (h : dumpFlagHeader env cfg release w = .ok () w') :
    ∃ fs, w.fs.makedirs nativeGenPath = .ok fs ∧
      writeIfDiff env flagsPath (flagText cfg.version cfg.versionCode release) { w with fs } = .ok () w' := by
  rw [dumpFlagHeader] at h
  obtain ⟨u, w₁, hm, rest⟩ := bind_eq_ok h
  obtain ⟨fs, hfs, rfl⟩ := liftFs_eq_ok w hm
  exact ⟨fs, hfs, rest⟩

theorem dumpFlagHeader_returns {fs : Fs} (dirs : w.fs.makedirs nativeGenPath = .ok fs)
    (file : w.fs.get flagsPath = none ∨ ∃ b s, w.fs.get flagsPath = some (.file b) ∧ env.codec.decode b = some s)
    (enc : (env.codec.encode (writeNewlines env.isWindows (flagText cfg.version cfg.versionCode release))).isSome) :
    ∃ w', dumpFlagHeader env cfg release w = .ok () w' := by
  obtain ⟨gen, frame⟩ := makedirs_gen dirs
  have same : fs.get flagsPath = w.fs.get flagsPath := frame flagsPath (by decide)
  have hpar : fs.get (parent flagsPath) = some .dir := by simpa [Fs.isDir] using gen nativeGenPath (List.prefix_refl _)
  obtain ⟨w', h⟩ := writeIfDiff_returns (w := { w with fs }) hpar (by simpa only [same] using file) enc
  exact ⟨w', by rw [dumpFlagHeader, bind_ok (makedirs_ok w dirs)]; exact h⟩

theorem dumpFlagHeader_frame (h : dumpFlagHeader env cfg release w = .ok () w') {q : Path}
    (hq : ¬ q <+: nativeGenPath) (hf : q ≠ flagsPath) : w'.fs.get q = w.fs.get q := by
  obtain ⟨fs, hfs, h⟩ := dumpFlagHeader_cases h
  rw [writeIfDiff_frame h hf]
  rcases (w.fs.makedirs_spec hfs).2 q with e | ⟨pre, -⟩
  · exact e
  · exact absurd pre hq

theorem dumpFlagHeader_genDirs (h : dumpFlagHeader env cfg release w = .ok () w') : GenDirs w'.fs := by
  obtain ⟨fs, hfs, h⟩ := dumpFlagHeader_cases h
  refine (makedirs_gen hfs).1.congr fun q pre => writeIfDiff_frame h ?_
  rintro rfl
  exact not_prefix_gen_of_length (by decide) pre

theorem dumpFlagHeader_settles (hr : '\r' ∉ cfg.version) (h : dumpFlagHeader env cfg release w = .ok () w') :
    GenDirs w'.fs ∧ Settled env w'.fs flagsPath (flagText cfg.version cfg.versionCode release) := by
  obtain ⟨fs, -, rest⟩ := dumpFlagHeader_cases h
  exact ⟨dumpFlagHeader_genDirs h, writeIfDiff_settles (cr_not_mem_flagText hr _ _) rest⟩

theorem dumpFlagHeader_of_settled (dirs : GenDirs w.fs)
    (h : Settled env w.fs flagsPath (flagText cfg.version cfg.versionCode release)) :
    dumpFlagHeader env cfg release w = .ok () w := by
  rw [dumpFlagHeader, bind_ok (makedirs_of_genDirs dirs)]
  exact writeIfDiff_settled h

end Flags

def BinSettled (env : Env) (fs : Fs) (arch : String) : Prop :=
  ∃ b, fs.get (preloadPath arch) = some (.file b) ∧
    Settled env fs (binHeaderPath arch) (binaryDump b "init_ld_xz".toList env.xz)

theorem preloadPath_ne_binHeaderPath : ∀ a ∈ archs, ∀ b ∈ archs, preloadPath a ≠ binHeaderPath b := by decide

theorem binHeaderPath_inj : ∀ a ∈ archs, ∀ b ∈ archs, binHeaderPath a = binHeaderPath b → a = b := by decide

section Preload

variable {env : Env} {w w' : World} {arch : String} {as : List String}

theorem BinSettled.congr {fs fs' : Fs} (h : BinSettled env fs arch)
    (same : ∀ q, (q = preloadPath arch ∨ q = binHeaderPath arch) → fs'.get q = fs.get q) :
    BinSettled env fs' arch := by
  obtain ⟨b, hb, settled⟩ := h
  exact ⟨b, (same _ (.inl rfl)).trans hb, settled.congr (same _ (.inr rfl))⟩

theorem dumpPreload_cases {u : Unit} (h : dumpPreload env arch w = .ok u w') :
    ∃ b, w.fs.get (preloadPath arch) = some (.file b) ∧
      writeIfDiff env (binHeaderPath arch) (binaryDump b "init_ld_xz".toList env.xz) w = .ok u w' := by
  rw [dumpPreload] at h
  obtain ⟨b, w₁, hb, rest⟩ := bind_eq_ok h
  obtain ⟨rfl, hb⟩ := readBytes_eq_ok w hb
  exact ⟨b, hb, rest⟩

theorem dumpPreload_frame {u : Unit} (h : dumpPreload env arch w = .ok u w') {q : Path}
    (hq : q ≠ binHeaderPath arch) : w'.fs.get q = w.fs.get q :=
  let ⟨_, _, h⟩ := dumpPreload_cases h
  writeIfDiff_frame h hq

theorem dumpPreload_settles (harch : arch ∈ archs) (h : dumpPreload env arch w = .ok () w') :
    BinSettled env w'.fs arch := by
  obtain ⟨b, hb, h⟩ := dumpPreload_cases h
  refine ⟨b, ?_, writeIfDiff_settles (cr_not_mem_binaryDump b (by decide) _) h⟩
  rw [writeIfDiff_frame h (preloadPath_ne_binHeaderPath arch harch arch harch), hb]

theorem dumpPreload_of_settled (h : BinSettled env w.fs arch) : dumpPreload env arch w = .ok () w := by
  obtain ⟨b, hb, settled⟩ := h
  have read : readBytes (preloadPath arch) w = .ok b w := by simp [readBytes, Fs.read, hb]
  rw [dumpPreload, bind_ok read]
  exact writeIfDiff_settled settled

theorem forM_dumpPreload_frame {u : Unit} (h : as.forM (dumpPreload env) w = .ok u w') {q : Path}
    (hq : ∀ a ∈ as, q ≠ binHeaderPath a) : w'.fs.get q = w.fs.get q := by
  induction as generalizing w with
  | nil => cases h; rfl
  | cons a as ih =>
    rw [forM_cons] at h
    obtain ⟨u₁, w₁, first, rest⟩ := bind_eq_ok h
    rw [ih rest fun b hb => hq b (List.mem_cons_of_mem a hb), dumpPreload_frame first (hq a (List.mem_cons_self a as))]

theorem forM_dumpPreload_settles (has : ∀ a ∈ as, a ∈ archs) (h : as.forM (dumpPreload env) w = .ok () w') :
    ∀ a ∈ as, BinSettled env w'.fs a := by
  induction as generalizing w with
  | nil => simp
  | cons a as ih =>
    rw [forM_cons] at h
    obtain ⟨u₁, w₁, first, rest⟩ := bind_eq_ok h
    have later := ih (fun b hb => has b (List.mem_cons_of_mem a hb)) rest
    have ha := has a (List.mem_cons_self a as)
    intro b hb
    by_cases mem : b ∈ as
    · exact later b mem
    · obtain rfl : b = a := by simpa [mem] using hb
      refine (dumpPreload_settles ha first).congr fun q hq => forM_dumpPreload_frame rest fun c hc e => ?_
      have hc' := has c (List.mem_cons_of_mem b hc)
      rcases hq with rfl | rfl
      · exact preloadPath_ne_binHeaderPath b ha c hc' e
      · exact mem (binHeaderPath_inj b ha c hc' e ▸ hc)

theorem forM_dumpPreload_of_settled (h : ∀ a ∈ as, BinSettled env w.fs a) :
    as.forM (dumpPreload env) w = .ok () w := by
  induction as with
  | nil => rfl
  | cons a as ih =>
    rw [forM_cons, bind_ok (dumpPreload_of_settled (h a (List.mem_cons_self a as)))]
    exact ih fun b hb => h b (List.mem_cons_of_mem a hb)

theorem dumpBinHeader_settles (h : dumpBinHeader env w = .ok () w') :
    GenDirs w'.fs ∧ ∀ a ∈ archs, BinSettled env w'.fs a := by
  rw [dumpBinHeader] at h
  obtain ⟨u, w₁, hm, rest⟩ := bind_eq_ok h
  obtain ⟨fs, hfs, rfl⟩ := liftFs_eq_ok w hm
  refine ⟨(makedirs_gen hfs).1.congr fun q pre => forM_dumpPreload_frame rest fun a _ e => ?_,
    forM_dumpPreload_settles (fun a ha => ha) rest⟩
  subst e
  exact not_prefix_gen_of_length (by simp [binHeaderPath, nativeGenPath]) pre

theorem dumpBinHeader_of_settled (dirs : GenDirs w.fs) (h : ∀ a ∈ archs, BinSettled env w.fs a) :
    dumpBinHeader env w = .ok () w := by
  rw [dumpBinHeader, bind_ok (makedirs_of_genDirs dirs)]
  exact forM_dumpPreload_of_settled h

end Preload

/-- `dump_flag_header` returns whenever the output directory can be made, `flags.h` is absent
or decodes, and its text encodes. When it returns and the version has no CR, `flags.h` reads
back as its text and a later call, in any state that has the same directories on the way and
the same `flags.h`, returns and changes nothing. After a `dump_bin_header` that returns, a later
one changes nothing while the preload libraries and the headers stay as they are. -/
theorem dump_headers_reach_fixed_point (env : Env) (cfg : Config) (release : Bool) :
    (∀ (w : World) (fs : Fs), w.fs.makedirs nativeGenPath = .ok fs →
      (w.fs.get flagsPath = none ∨
        ∃ b s, w.fs.get flagsPath = some (.file b) ∧ env.codec.decode b = some s) →
      (env.codec.encode (writeNewlines env.isWindows (flagText cfg.version cfg.versionCode release))).isSome →
      ∃ w', dumpFlagHeader env cfg release w = .ok () w') ∧
    ('\r' ∉ cfg.version → ∀ w w' : World, dumpFlagHeader env cfg release w = .ok () w' →
      readText env flagsPath w' = .ok (flagText cfg.version cfg.versionCode release) w' ∧
      ∀ w'' : World, (∀ q, q <+: nativeGenPath ∨ q = flagsPath → w''.fs.get q = w'.fs.get q) →
        dumpFlagHeader env cfg release w'' = .ok () w'') ∧
    (∀ w w' : World, dumpBinHeader env w = .ok () w' →
      ∀ w'' : World, (∀ q, q <+: nativeGenPath ∨ (∃ a ∈ archs, q = preloadPath a ∨ q = binHeaderPath a) →
          w''.fs.get q = w'.fs.get q) →
        dumpBinHeader env w'' = .ok () w'') := by
  refine ⟨fun w fs dirs file enc => dumpFlagHeader_returns dirs file enc, fun hr w w' h => ?_,
    fun w w' h w'' same => ?_⟩
  · obtain ⟨gen, settled⟩ := dumpFlagHeader_settles hr h
    exact ⟨readText_settled settled, fun w'' same => dumpFlagHeader_of_settled
      (gen.congr fun q pre => same q (.inl pre)) (settled.congr (same _ (.inr rfl)))⟩
  · obtain ⟨gen, bins⟩ := dumpBinHeader_settles h
    exact dumpBinHeader_of_settled (gen.congr fun q pre => same q (.inl pre))
      fun a ha => (bins a ha).congr fun q hq => same q (.inr ⟨a, ha, hq⟩)

def Toolchain.idle : Toolchain where
  run _ fs := some (0, fs)
  allows c fs st fs' h := by
    cases h
    cases c <;> simp [Cmd.Allows]

def sampleEnv : Env where
  isWindows := false
  codec := Codec.latin1
  cpuCount := 8
  ndkPath := ["sdk", "ndk", "magisk"]
  commitHash := "1a2b3c4d".toList
  xz := id
  setOrder := ⟨List.dedup, fun _ _ => List.mem_dedup, List.nodup_dedup⟩
  toolchain := Toolchain.idle

def sampleConfig : Config where
  props := configDefaults sampleEnv
  versionCode := 1000000
  outdir := ["out"]
  has_version := by decide

def flagsDirTree : Fs where
  entries := [(["native"], .dir), (["native", "out"], .dir), (nativeGenPath, .dir), (flagsPath, .dir)]
  nodup := by decide
  rooted := by decide

def nativeTree : Fs where
  entries := [(["native"], .dir)]
  nodup := by decide
  rooted := by decide

set_option maxRecDepth 4000 in
theorem flag_header_settles_on_sample :
    ∃ w', dumpFlagHeader sampleEnv sampleConfig false ⟨nativeTree, []⟩ = .ok () w' ∧
      readText sampleEnv flagsPath w' = .ok (flagText sampleConfig.version sampleConfig.versionCode false) w' ∧
      dumpFlagHeader sampleEnv sampleConfig false w' = .ok () w' := by
  obtain ⟨returns, settles, -⟩ := dump_headers_reach_fixed_point sampleEnv sampleConfig false
  obtain ⟨w', h⟩ := returns ⟨nativeTree, []⟩ _ rfl (.inl (by decide)) (by decide)
  obtain ⟨back, again⟩ := settles (by decide) _ _ h
  exact ⟨w', h, back, again w' fun _ _ => rfl⟩

/-- On that tree `dump_flag_header` raises `IsADirectoryError`, and `flags.h` never reads back. -/
theorem flags_header_on_directory :
    dumpFlagHeader sampleEnv sampleConfig false ⟨flagsDirTree, []⟩ =
        .error (.os .isADirectory flagsPath) ⟨flagsDirTree, []⟩ ∧
      readText sampleEnv flagsPath ⟨flagsDirTree, []⟩ =
        .error (.os .isADirectory flagsPath) ⟨flagsDirTree, []⟩ :=
  ⟨rfl, rfl⟩

end MagiskBuild
