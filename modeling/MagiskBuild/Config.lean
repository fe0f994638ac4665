import MagiskBuild.Process
import MagiskBuild.Props

/-!
The catalogs of build.py, its command-line options, and `load_config`: the defaults, then the
file `-c` names (by default `config.prop`) when it exists, then the `magisk.` keys of
`gradle.properties` when it exists; `versionCode` must read as an integer, and the output
directory is created. Every value is one `parse_props` returned or the git commit hash, so none
holds a CR or LF unless the hash does. `int()` is modelled for ASCII text; `Path(s)` splits at
`/`, which is how the OS reads a `PlainPath`.
-/
namespace MagiskBuild

def archs : List String := ["armeabi-v7a", "x86", "arm64-v8a", "x86_64"]

def triples : List String :=
  ["armv7a-linux-androideabi", "i686-linux-android", "aarch64-linux-android", "x86_64-linux-android"]

def defaultTargets : List String := ["magisk", "magiskinit", "magiskboot", "magiskpolicy", "busybox"]

def supportTargets : List String := defaultTargets ++ ["resetprop"]

def rustTargets : List String := ["magisk", "magiskinit", "magiskboot", "magiskpolicy"]

structure Args where
  /-- The positional targets of `binary` or `clean`. -/
  target : List String
  release : Bool
  verbose : Bool
  /-- `-c`, by default `config.prop`. -/
  config : Str

def pySpace : List Char := [' ', '\t', '\n', '\x0b', '\x0c', '\r']

def decimalValue (acc : Nat) : Str → Option Nat
  | [] => some acc
  | '_' :: c :: cs => if c.isDigit then decimalValue (acc * 10 + (c.toNat - 48)) cs else none
  | c :: cs => if c.isDigit then decimalValue (acc * 10 + (c.toNat - 48)) cs else none

def decimal : Str → Option Nat
  | c :: cs => if c.isDigit then decimalValue (c.toNat - 48) cs else none
  | [] => none

/-- `int(s)`: surrounding white space, an optional sign, then decimal digits. -/
def pyInt (s : Str) : Option Int :=
  match strip pySpace s with
  | '-' :: ds => (decimal ds).map fun n => -(n : Int)
  | '+' :: ds => (decimal ds).map fun n => (n : Int)
  | ds => (decimal ds).map fun n => (n : Int)

example : pyInt " -1_000\n".toList = some (-1000) ∧ pyInt "1__0".toList = none ∧
    pyInt "26100".toList = some 26100 := by decide

/-- `Path(s)`: the names between slashes, empty names and `.` left out. -/
def toPath (s : Str) : Path := ((s.splitOn '/').filter fun n => n != [] && n != ['.']).map String.mk

/-- A path text the OS reads as `toPath` does: relative to the repository root, with no `..`, and
no backslash or colon, which Windows would read as separators or a drive. -/
def PlainPath (s : Str) : Prop := s.head? ≠ some '/' ∧ ∀ n ∈ s.splitOn '/', n ≠ ['.', '.'] ∧ '\\' ∉ n ∧ ':' ∉ n

instance : DecidablePred PlainPath := fun s =>
  inferInstanceAs (Decidable (s.head? ≠ some '/' ∧ ∀ n ∈ s.splitOn '/', n ≠ ['.', '.'] ∧ '\\' ∉ n ∧ ':' ∉ n))

example : PlainPath "config.prop".toList ∧ ¬ PlainPath "x/../config.prop".toList ∧ ¬ PlainPath "/tmp/out".toList := by
  decide

/-- The `config` dictionary after `load_config`: `versionCode` and `outdir` have been converted,
and `version` is always set. -/
structure Config where
  props : Dict
  versionCode : Int
  outdir : Path
  has_version : "version".toList ∈ props.map Prod.fst

def Config.version (cfg : Config) : Str := (cfg.props.lookup "version".toList).get (Dict.lookup_isSome cfg.has_version)

theorem Config.version_mem (cfg : Config) : ("version".toList, cfg.version) ∈ cfg.props :=
  Dict.mem_of_lookup (Option.some_get _).symm

section Load

variable (env : Env)

def configDefaults : Dict :=
  [("version".toList, env.commitHash), ("versionCode".toList, "1000000".toList), ("outdir".toList, "out".toList)]

def gradleKeys (d gradle : Dict) : Dict :=
  gradle.foldl (fun d kv => if "magisk.".toList.isPrefixOf kv.1 then Dict.insert d (kv.1.drop 7) kv.2 else d) d

/-- The dictionary built from the files that were there: `config.update(parse_props(...))`, then
the keys of `gradle.properties`. -/
def configDict (configProps gradleProps : Option Dict) : Dict :=
  let d := match configProps with
    | some props => (configDefaults env).update props
    | none => configDefaults env
  match gradleProps with
  | some gradle => gradleKeys d gradle
  | none => d

def readPropsIfExists (p : Path) : M (Option Dict) := do
  if (← pathExists p) then
    let text ← readText env p
    pure (some (parseProps text))
  else pure none

theorem key_mem_gradleKeys {d : Dict} {k : Str} (h : k ∈ d.map Prod.fst) (gradle : Dict) :
    k ∈ (gradleKeys d gradle).map Prod.fst := by
  induction gradle generalizing d with
  | nil => exact h
  | cons kv gradle ih =>
    simp only [gradleKeys, List.foldl_cons] at ih ⊢
    split
    · exact ih (Dict.key_mem_insert h _ _)
    · exact ih h

theorem version_mem_configDict (c g : Option Dict) :
    "version".toList ∈ (configDict env c g).map Prod.fst := by
  have base : "version".toList ∈ (configDefaults env).map Prod.fst := by simp [configDefaults]
  have first : "version".toList ∈ (match c with
      | some props => (configDefaults env).update props
      | none => configDefaults env).map Prod.fst := by
    cases c
    · exact base
    · exact Dict.key_mem_update base _
  cases g
  · exact first
  · exact key_mem_gradleKeys first _

def loadConfig (args : Args) : M Config := do
  let configProps ← readPropsIfExists env (toPath args.config)
  let gradleProps ← readPropsIfExists env ["gradle.properties"]
  let d := configDict env configProps gradleProps
  match pyInt ((d.lookup "versionCode".toList).getD []) with
  | none => error "Config error: \"versionCode\" is required to be an integer"
  | some code =>
    let outdir := toPath ((d.lookup "outdir".toList).getD [])
    makedirs outdir
    pure { props := d, versionCode := code, outdir, has_version := version_mem_configDict env _ _ }

theorem readPropsIfExists_keeps (p : Path) (w : World) :
    (∃ r, readPropsIfExists env p w = .ok r w) ∨ ∃ e, readPropsIfExists env p w = .error e w := by
  rw [readPropsIfExists, bind_ok (show pathExists p w = .ok (w.fs.pathExists p) w from rfl)]
  split
  · rcases readText_keeps env p w with ⟨s, h⟩ | ⟨e, h⟩ <;> simp [h]
  · exact .inl ⟨none, rfl⟩

theorem loadConfig_final (args : Args) (w : World) : final (loadConfig env args w) = w ∨
    ∃ cfg fs, w.fs.makedirs cfg.outdir = .ok fs ∧ loadConfig env args w = .ok cfg { w with fs } := by
  rw [loadConfig]
  rcases readPropsIfExists_keeps env (toPath args.config) w with ⟨c, hc⟩ | ⟨e, hc⟩
  · rw [bind_ok hc]
    rcases readPropsIfExists_keeps env ["gradle.properties"] w with ⟨g, hg⟩ | ⟨e, hg⟩
    · rw [bind_ok hg]
      cases pyInt (((configDict env c g).lookup "versionCode".toList).getD []) with
      | none => exact .inl rfl
      | some code =>
        dsimp only
        cases hm : w.fs.makedirs (toPath (((configDict env c g).lookup "outdir".toList).getD [])) with
        | error e => exact .inl (by simp only [bind_apply, makedirs, liftFs, hm]; rfl)
        | ok fs =>
          rw [bind_ok (makedirs_ok w hm)]
          refine .inr ⟨_, fs, ?_, rfl⟩
          exact hm
    · exact .inl (by rw [bind_error hg]; rfl)
  · exact .inl (by rw [bind_error hc]; rfl)

end Load

def NoLineBreak (v : Str) : Prop := '\r' ∉ v ∧ '\n' ∉ v

section Values

variable {env : Env}

theorem values_gradleKeys {d gradle : Dict} (hd : ∀ kv ∈ d, NoLineBreak kv.2)
    (hg : ∀ kv ∈ gradle, NoLineBreak kv.2) : ∀ kv ∈ gradleKeys d gradle, NoLineBreak kv.2 := by
  induction gradle generalizing d with
  | nil => exact hd
  | cons x gradle ih =>
    simp only [gradleKeys, List.foldl_cons] at ih ⊢
    have rest : ∀ kv ∈ gradle, NoLineBreak kv.2 := fun kv h => hg kv (List.mem_cons_of_mem x h)
    split
    · exact ih (Dict.values_insert hd _ (hg x (List.mem_cons_self x gradle))) rest
    · exact ih hd rest

theorem values_parseProps (text : Str) : ∀ kv ∈ parseProps text, NoLineBreak kv.2 := fun kv h =>
  have valid := ((parseProps_good text).1 kv h).2
  ⟨valid.2.1, valid.2.2.1⟩

theorem readPropsIfExists_clean {p : Path} {w w' : World} {r : Option Dict}
    (h : readPropsIfExists env p w = .ok r w') : ∀ d, r = some d → ∀ kv ∈ d, NoLineBreak kv.2 := by
  obtain ⟨ex, w₁, -, h⟩ := bind_eq_ok h
  cases ex
  · cases h
    rintro d ⟨⟩
  · obtain ⟨text, w₂, -, h⟩ := bind_eq_ok (by simpa only [if_true] using h)
    cases h
    rintro d ⟨⟩
    exact values_parseProps _

theorem configDict_clean (hash : NoLineBreak env.commitHash) {c g : Option Dict}
    (hc : ∀ d, c = some d → ∀ kv ∈ d, NoLineBreak kv.2) (hg : ∀ d, g = some d → ∀ kv ∈ d, NoLineBreak kv.2) :
    ∀ kv ∈ configDict env c g, NoLineBreak kv.2 := by
  have base : ∀ kv ∈ configDefaults env, NoLineBreak kv.2 := by
    simp only [configDefaults, List.mem_cons, List.mem_singleton, List.not_mem_nil, or_false]
    rintro kv (rfl | rfl | rfl)
    · exact hash
    all_goals exact ⟨by decide, by decide⟩
  have first : ∀ kv ∈ (match c with
      | some props => (configDefaults env).update props
      | none => configDefaults env), NoLineBreak kv.2 := by
    cases c
    · exact base
    · exact Dict.values_update base (hc _ rfl)
  cases g
  · exact first
  · exact values_gradleKeys first (hg _ rfl)

theorem loadConfig_values_clean (env : Env) (args : Args) {w w' : World} {cfg : Config}
    (hash : NoLineBreak env.commitHash) (h : loadConfig env args w = .ok cfg w') :
    (∀ kv ∈ cfg.props, NoLineBreak kv.2) ∧ NoLineBreak cfg.version := by
  obtain ⟨c, w₁, hc, h⟩ := bind_eq_ok h
  obtain ⟨g, w₂, hg, h⟩ := bind_eq_ok h
  have clean := configDict_clean hash (readPropsIfExists_clean hc) (readPropsIfExists_clean hg)
  dsimp only at h
  cases code : pyInt (((configDict env c g).lookup "versionCode".toList).getD []) with
  | none => simp only [code] at h; cases h
  | some n =>
    simp only [code] at h
    obtain ⟨_, _, -, h⟩ := bind_eq_ok h
    cases h
    exact ⟨clean, clean _ (Config.version_mem ⟨_, n, _, _⟩)⟩

end Values

end MagiskBuild
