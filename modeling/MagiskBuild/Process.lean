import MagiskBuild.FileTree
import MagiskBuild.Text

/-!
The process build.py runs as. Its state is the file tree and a log of what it asked of the
world outside (programs started, files opened for writing). A run ends with a value, or with
the failure that stops the script in the state reached so far: nothing is rolled back.
The programs it starts are a `Toolchain`, whose contract says where each one may write; the
machine it runs on is an `Env`. Paths are resolved against the repository root, so
`os.chdir` only checks that its directory is there. Printing is not modelled.
-/
namespace MagiskBuild

/-- A program build.py starts, with what it passes to it. -/
inductive Cmd where
  /-- `run_cargo(cmds)`: the NDK's cargo, with `-Zthreads=min(8, cpu_count)` in `RUSTFLAGS`. -/
  | cargo (args : List String) (threads : Nat)
  /-- `system(f"{ndk_build} {flags} -j{cpu_count}")`, started from `native`. -/
  | ndkBuild (flags : String) (jobs : Nat)
  /-- gcc building the ELF cleaner from its bundled sources, with the fixed package defines,
  at `out`. -/
  | gcc (out : Path)
  /-- `execv([elf_cleaner, *args, *files])`. -/
  | elfCleaner (exe : Path) (args : List String) (files : List Path)
  /-- `javac -version`, through the shell. -/
  | javac
  /-- `execv([gradlew, *tasks])`. -/
  | gradlew (tasks : List String)
  deriving DecidableEq, Repr, Inhabited

inductive Failure where
  /-- `error(msg)`, which exits. -/
  | exit (msg : String)
  /-- An `OSError` raised for a path. -/
  | os (e : OsError) (p : Path)
  /-- `UnicodeDecodeError` reading a text file. -/
  | decode (p : Path)
  /-- `UnicodeEncodeError` writing one. -/
  | encode (p : Path)
  /-- `subprocess.run` could not start the program. -/
  | spawn (c : Cmd)
  deriving DecidableEq, Repr, Inhabited

inductive Event where
  | exec (c : Cmd) (status : Nat)
  | write (p : Path)
  deriving DecidableEq, Repr, Inhabited

structure World where
  fs : Fs
  log : List Event

def cargoTree : Path := ["native", "src", "target"]

def cargoLock : Path := ["native", "src", "Cargo.lock"]

def cargoManifest : Path := ["native", "src", "Cargo.toml"]

def cargoArgs (release verbose : Bool) (target triple : String) : List String :=
  ["build", "-p", target] ++ (if release then ["-r"] else []) ++ (if verbose then [] else ["-q"]) ++
    ["--target", triple]

/-- `fnmatch.fnmatch(name, pattern)` for a pattern of literal characters and `*`, matched
case-sensitively as on POSIX. -/
def wildMatch : List Char → List Char → Bool
  | [], s => s.isEmpty
  | '*' :: ps, s => s.tails.any (wildMatch ps)
  | p :: ps, c :: s => p == c && wildMatch ps s
  | _ :: _, [] => false

def rsGenPattern : List Char := "*-rs.*pp".toList

def hidden (name : String) : Bool := name.toList.head? == some '.'

/-- Whether `glob.glob("native/**/*-rs.*pp", recursive=True)` lists `q`: a name below `native`,
reached through directories that are not hidden, itself not hidden and matching the pattern. -/
def rsGenMatch : Path → Bool
  | "native" :: rest => match rest.getLast? with
    | some name => rest.all (fun n => !hidden n) && wildMatch rsGenPattern name.toList
    | none => false
  | _ => false

def protoSources : List Path :=
  [["native", "src", "boot", "proto", "mod.rs"], ["native", "src", "boot", "proto", "update_metadata.rs"]]

/-- What a build of `run_cargo_build` may write: its target directory and lock file, and the
sources its build scripts generate, which `clean rust` removes. -/
def CargoWrites (q : Path) : Prop := cargoTree <+: q ∨ q = cargoLock ∨ q ∈ protoSources ∨ rsGenMatch q

instance : DecidablePred CargoWrites := fun q =>
  inferInstanceAs (Decidable (cargoTree <+: q ∨ q = cargoLock ∨ q ∈ protoSources ∨ rsGenMatch q))

theorem CargoWrites.native {q : Path} (h : CargoWrites q) : ["native"] <+: q := by
  rcases h with pre | rfl | mem | gen
  · exact List.IsPrefix.trans ⟨_, rfl⟩ pre
  · exact ⟨_, rfl⟩
  · simp only [protoSources, List.mem_cons, List.mem_singleton, List.not_mem_nil, or_false] at mem
    rcases mem with rfl | rfl <;> exact ⟨_, rfl⟩
  · unfold rsGenMatch at gen
    split at gen
    · exact ⟨_, rfl⟩
    · cases gen

/-- Where a program may write. A build of `run_cargo_build` writes only `CargoWrites`; any other
command line, as `build.py cargo` passes on, may change anything. ndk-build writes below
`native/libs` and `native/obj`, gcc only its output, the ELF cleaner only the regular files it is
given (and they stay regular files), javac nowhere, gradle nowhere below `native`. -/
def Cmd.Allows : Cmd → Fs → Fs → Prop
  | .cargo args _, fs, fs' => (∃ release verbose target triple, args = cargoArgs release verbose target triple) →
      ∀ q, ¬ CargoWrites q → fs'.get q = fs.get q
  | .ndkBuild .., fs, fs' => ∀ q, ¬ ["native", "libs"] <+: q → ¬ ["native", "obj"] <+: q →
      fs'.get q = fs.get q
  | .gcc out, fs, fs' => ∀ q, q ≠ out → fs'.get q = fs.get q
  | .elfCleaner _ _ files, fs, fs' => ∀ q, fs'.get q = fs.get q ∨ (q ∈ files ∧ fs.isFile q ∧ fs'.isFile q)
  | .javac, fs, fs' => ∀ q, fs'.get q = fs.get q
  | .gradlew _, fs, fs' => ∀ q, ["native"] <+: q → fs'.get q = fs.get q

/-- The programs: each either cannot be started, or exits with a status, having changed the
tree as its contract allows. -/
structure Toolchain where
  run : Cmd → Fs → Option (Nat × Fs)
  allows : ∀ c fs st fs', run c fs = some (st, fs') → c.Allows fs fs'

/-- The order CPython iterates a set of strings in: its elements, each once. String hashes are
salted per process, so each run of the script has its own. -/
structure SetOrder where
  order : List String → List String
  mem : ∀ l x, x ∈ order l ↔ x ∈ l
  nodup : ∀ l, (order l).Nodup

/-- The machine build.py runs on, and the process it runs as. -/
structure Env where
  isWindows : Bool
  codec : Codec
  cpuCount : Nat
  /-- `ndk_path`, the NDK below `ANDROID_SDK_ROOT`. -/
  ndkPath : Path
  /-- `cmd_out(["git", "rev-parse", "--short=8", "HEAD"])`. -/
  commitHash : Str
  /-- `xz`: `lzma.compress(data, preset=9, check=lzma.CHECK_NONE)`. -/
  xz : List UInt8 → List UInt8
  setOrder : SetOrder
  toolchain : Toolchain

def Env.withOrder (env : Env) (o : SetOrder) : Env := { env with setOrder := o }

abbrev M := EStateM Failure World

def final {α : Type} : EStateM.Result Failure World α → World
  | .ok _ w => w
  | .error _ w => w

section Primitives

variable (env : Env)

def liftFs (p : Path) (f : Fs → Except OsError Fs) : M Unit := fun w =>
  match f w.fs with
  | .ok fs => .ok () { w with fs }
  | .error e => .error (.os e p) w

def readBytes (p : Path) : M (List UInt8) := fun w =>
  match w.fs.read p with
  | .ok b => .ok b w
  | .error e => .error (.os e p) w

/-- `open(p, "r").read()`: decoded, then universal newlines. -/
def readText (p : Path) : M Str := fun w =>
  match w.fs.read p with
  | .ok b => match env.codec.decode b with
    | some s => .ok (universalNewlines s) w
    | none => .error (.decode p) w
  | .error e => .error (.os e p) w

/-- `open(p, "w").write(s)`: opening truncates or creates the file; the text is then written with
the platform's line separator, and encoded. -/
def writeText (p : Path) (s : Str) : M Unit := fun w =>
  match w.fs.write p [] with
  | .error e => .error (.os e p) w
  | .ok fs =>
    let opened : World := { fs, log := w.log ++ [.write p] }
    match env.codec.encode (writeNewlines env.isWindows s) with
    | none => .error (.encode p) opened
    | some b => match fs.write p b with
      | .ok fs' => .ok () { opened with fs := fs' }
      | .error e => .error (.os e p) opened

def pathExists (p : Path) : M Bool := fun w => .ok (w.fs.pathExists p) w

/-- `execv` and `system`: the status the program exits with. -/
def execv (c : Cmd) : M Nat := fun w =>
  match env.toolchain.run c w.fs with
  | some (st, fs) => .ok st { fs, log := w.log ++ [.exec c st] }
  | none => .error (.spawn c) w

def error {α : Type} (msg : String) : M α := fun w => .error (.exit msg) w

def mv (src dst : Path) : M Unit := fun w => .ok () { w with fs := w.fs.mv src dst }

def cp (src dst : Path) : M Unit := fun w => .ok () { w with fs := w.fs.cp src dst }

def rm (p : Path) : M Unit := liftFs p (·.rm p)

def rmRf (p : Path) : M Unit := liftFs p (·.rmRf p)

def mkdirExistOk (p : Path) : M Unit := liftFs p (·.mkdirExistOk p)

def makedirs (p : Path) : M Unit := liftFs p (·.makedirs p)

def chdir (p : Path) : M Unit := fun w =>
  if w.fs.isDir p then .ok () w
  else .error (.os (if w.fs.pathExists p then .notADirectory else w.fs.absentError p) p) w

end Primitives

section Run

variable {α β : Type} {x : M α} {f : α → M β} {w w' : World} {a : α} {e : Failure}

@[simp] theorem bind_apply (x : M α) (f : α → M β) (w : World) :
    (x >>= f) w = match x w with
      | .ok a w' => f a w'
      | .error e w' => .error e w' := by
  show EStateM.bind x f w = _
  unfold EStateM.bind
  cases x w <;> rfl

@[simp] theorem map_apply (g : α → β) (x : M α) (w : World) :
    (g <$> x) w = match x w with
      | .ok a w' => .ok (g a) w'
      | .error e w' => .error e w' := by
  show EStateM.map g x w = _
  unfold EStateM.map
  cases x w <;> rfl

@[simp] theorem pure_apply (a : α) (w : World) : (pure a : M α) w = .ok a w := rfl

theorem bind_ok (h : x w = .ok a w') : (x >>= f) w = f a w' := by simp [h]

theorem bind_error (h : x w = .error e w') : (x >>= f) w = .error e w' := by simp [h]

theorem bind_eq_ok {b : β} (h : (x >>= f) w = .ok b w') : ∃ a w₁, x w = .ok a w₁ ∧ f a w₁ = .ok b w' := by
  simp only [bind_apply] at h
  split at h
  · exact ⟨_, _, ‹_›, h⟩
  · cases h

theorem forM_cons {γ : Type} (g : γ → M Unit) (c : γ) (cs : List γ) :
    (c :: cs).forM g = g c >>= fun _ => cs.forM g := rfl

theorem forM_map {γ δ : Type} (xs : List γ) (g : γ → δ) (f : δ → M Unit) :
    (xs.map g).forM f = xs.forM fun x => f (g x) := by
  induction xs with
  | nil => rfl
  | cons x xs ih => rw [List.map_cons, List.forM_cons', List.forM_cons', ih]

theorem forM_flatMap {γ δ : Type} (xs : List γ) (g : γ → List δ) (f : δ → M Unit) :
    (xs.flatMap g).forM f = xs.forM fun x => (g x).forM f := by
  induction xs with
  | nil => rfl
  | cons x xs ih => rw [List.flatMap_cons, List.forM_append, ih, List.forM_cons']

end Run

section Calls

variable (env : Env) (w : World)

@[simp] theorem pathExists_apply (p : Path) : pathExists p w = .ok (w.fs.pathExists p) w := rfl

@[simp] theorem mv_apply (src dst : Path) : mv src dst w = .ok () { w with fs := w.fs.mv src dst } := rfl

theorem liftFs_ok {p : Path} {f : Fs → Except OsError Fs} {fs : Fs} (h : f w.fs = .ok fs) :
    liftFs p f w = .ok () { w with fs } := by simp [liftFs, h]

theorem liftFs_error {p : Path} {f : Fs → Except OsError Fs} {e : OsError} (h : f w.fs = .error e) :
    liftFs p f w = .error (.os e p) w := by simp [liftFs, h]

theorem makedirs_ok {p : Path} {fs : Fs} (h : w.fs.makedirs p = .ok fs) :
    makedirs p w = .ok () { w with fs } := liftFs_ok w h

theorem mkdirExistOk_ok {p : Path} {fs : Fs} (h : w.fs.mkdirExistOk p = .ok fs) :
    mkdirExistOk p w = .ok () { w with fs } := liftFs_ok w h

theorem rmRf_ok {p : Path} {fs : Fs} (h : w.fs.rmRf p = .ok fs) : rmRf p w = .ok () { w with fs } := liftFs_ok w h

theorem rm_ok {p : Path} {fs : Fs} (h : w.fs.rm p = .ok fs) : rm p w = .ok () { w with fs } := liftFs_ok w h

theorem chdir_ok {p : Path} (h : w.fs.isDir p) : chdir p w = .ok () w := by simp [chdir, h]

theorem execv_ok {c : Cmd} {st : Nat} {fs : Fs} (h : env.toolchain.run c w.fs = some (st, fs)) :
    execv env c w = .ok st { fs, log := w.log ++ [.exec c st] } := by simp [execv, h]

theorem execv_eq_ok {c : Cmd} {st : Nat} {w' : World} (h : execv env c w = .ok st w') :
    env.toolchain.run c w.fs = some (st, w'.fs) ∧ w'.log = w.log ++ [.exec c st] := by
  unfold execv at h
  split at h
  · cases h; exact ⟨‹_›, rfl⟩
  · cases h

theorem execv_allows {c : Cmd} {st : Nat} {w' : World} (h : execv env c w = .ok st w') :
    c.Allows w.fs w'.fs :=
  env.toolchain.allows c w.fs st w'.fs (execv_eq_ok env w h).1

theorem liftFs_eq_ok {p : Path} {f : Fs → Except OsError Fs} {u : Unit} {w' : World}
    (h : liftFs p f w = .ok u w') : ∃ fs, f w.fs = .ok fs ∧ w' = { w with fs } := by
  unfold liftFs at h
  split at h
  · cases h; exact ⟨_, ‹_›, rfl⟩
  · cases h

theorem readBytes_eq_ok {p : Path} {b : List UInt8} {w' : World} (h : readBytes p w = .ok b w') :
    w' = w ∧ w.fs.get p = some (.file b) := by
  rcases hp : w.fs.get p with _ | _ | b' <;> simp [readBytes, Fs.read, hp] at h
  obtain ⟨rfl, rfl⟩ := h
  exact ⟨rfl, rfl⟩

theorem readText_eq_ok {p : Path} {s : Str} {w' : World} (h : readText env p w = .ok s w') :
    w' = w ∧ ∃ b t, w.fs.get p = some (.file b) ∧ env.codec.decode b = some t ∧ s = universalNewlines t := by
  rcases hp : w.fs.get p with _ | _ | b <;> simp [readText, Fs.read, hp] at h
  rcases ht : env.codec.decode b with _ | t <;> simp [ht] at h
  obtain ⟨rfl, rfl⟩ := h
  exact ⟨rfl, b, t, rfl, ht, rfl⟩

theorem writeText_eq_ok {p : Path} {s : Str} {u : Unit} {w' : World} (h : writeText env p s w = .ok u w') :
    ∃ b, env.codec.encode (writeNewlines env.isWindows s) = some b ∧ w'.log = w.log ++ [.write p] ∧
      ∀ q, w'.fs.get q = if q = p then some (.file b) else w.fs.get q := by
  unfold writeText at h
  split at h
  · cases h
  · rename_i fs₀ h₀
    split at h
    · cases h
    · rename_i b hb
      split at h
      · rename_i fs₁ h₁
        cases h
        refine ⟨b, hb, rfl, fun q => ?_⟩
        rw [fs₀.get_of_write h₁, w.fs.get_of_write h₀]
        split_ifs <;> rfl
      · cases h

theorem readText_keeps (p : Path) (w : World) :
    (∃ s, readText env p w = .ok s w) ∨ ∃ e, readText env p w = .error e w := by
  unfold readText
  split
  · split
    · exact .inl ⟨_, rfl⟩
    · exact .inr ⟨_, rfl⟩
  · exact .inr ⟨_, rfl⟩

theorem readText_congr {p : Path} {w w' : World} (rd : w'.fs.read p = w.fs.read p) {s : Str}
    (h : readText env p w = .ok s w) : readText env p w' = .ok s w' := by
  unfold readText at h ⊢
  rw [rd]
  split at h
  · split at h
    · cases h
      simp only [*]
    · cases h
  · cases h

theorem readText_file {p : Path} {b : List UInt8} {s : Str} (hp : w.fs.get p = some (.file b))
    (hs : env.codec.decode b = some s) : readText env p w = .ok (universalNewlines s) w := by
  simp [readText, Fs.read, hp, hs]

theorem writeText_ok {p : Path} {s : Str} {b : List UInt8} (hp : w.fs.get p ≠ some .dir)
    (hpar : w.fs.get (parent p) = some .dir) (hb : env.codec.encode (writeNewlines env.isWindows s) = some b) :
    ∃ fs, writeText env p s w = .ok () { fs, log := w.log ++ [.write p] } ∧
      ∀ q, fs.get q = if q = p then some (.file b) else w.fs.get q := by
  obtain ⟨fs₀, h₀⟩ := w.fs.write_ok [] hp hpar
  have hp₀ : fs₀.get p ≠ some .dir := by simp [w.fs.get_of_write h₀]
  have hpar₀ : fs₀.get (parent p) = some .dir := by
    rw [w.fs.get_of_write h₀, if_neg (parent_ne_self (w.fs.ne_root_of_get_ne_dir hp)), hpar]
  obtain ⟨fs₁, h₁⟩ := fs₀.write_ok b hp₀ hpar₀
  refine ⟨fs₁, by simp [writeText, h₀, hb, h₁], fun q => ?_⟩
  rw [fs₀.get_of_write h₁, w.fs.get_of_write h₀]
  split_ifs <;> rfl

end Calls

end MagiskBuild
