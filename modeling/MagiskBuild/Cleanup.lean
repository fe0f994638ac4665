import MagiskBuild.Relocate

/-!
`cleanup`, the `clean` action. Its scopes are the requested ones among `native`, `cpp`, `rust`
and `java`, with `cpp` and `rust` for `native`, or all four when none is requested. `cpp` removes
the ndk-build trees and `native/out`; `rust` the cargo tree, the two protobuf sources generated
for magiskboot, and every `native/**/*-rs.*pp`; `java` runs gradle's clean tasks once `find_jdk`
has found `javac`, and removes the stub assets. `glob` is modelled for its one pattern, through
directories that are not hidden and in the order the tree lists its paths. A clean run without
`java` only removes, leaves exactly the tree without what it cleans, and a second one changes
nothing. Each scope test is membership in the set build.py narrows `args.target` to, which
`cleanScope` decides from the request.
-/
namespace MagiskBuild

def cleanTargets : List String := ["native", "cpp", "rust", "java"]

/-- Whether `cleanup` cleans `scope` for the positional `target`s: `args.target` narrowed to the
scopes it knows, with `cpp` and `rust` added for `native`, or all of them when it is empty. -/
def cleanScope (target : List String) (scope : String) : Bool :=
  if target = [] then cleanTargets.contains scope
  else target.contains scope && cleanTargets.contains scope ||
    target.contains "native" && (scope == "cpp" || scope == "rust")

example : cleanScope [] "java" ∧ cleanScope ["native"] "rust" ∧ cleanScope ["native"] "java" = false ∧
    cleanScope ["rust", "app"] "cpp" = false := by decide

/-- `args.target` once `cleanup` has narrowed it: `set(args.target) & support_targets`, with `cpp`
and `rust` added for `native`, or `support_targets` when it is empty. -/
def cleanSet (target : List String) : List String :=
  if target = [] then cleanTargets
  else cleanTargets.filter target.contains ++ if target.contains "native" then ["cpp", "rust"] else []

theorem cleanScope_eq_contains (target : List String) (scope : String) :
    cleanScope target scope = (cleanSet target).contains scope := by
  unfold cleanScope cleanSet
  split_ifs with h n
  · rfl
  all_goals
    rw [Bool.eq_iff_iff]
    simp at n
    by_cases hs : scope = "native" <;> simp [cleanTargets, n, hs, and_comm]

def rsGens (fs : Fs) : List Path := (fs.entries.map Prod.fst).filter rsGenMatch

def cppTrees : List Path := [["native", "libs"], ["native", "obj"], nativeOut]

def stubAssets : List Path := [["app", "src", "debug"], ["app", "src", "release"]]

def gradleCleanTasks : List String := ["app:clean", "app:shared:clean", "stub:clean"]

def jdkMessage : String :=
  "Please set Android Studio\x27s path to environment variable ANDROID_STUDIO,\nor install JDK 17 and make sure \x27javac\x27 is available in PATH"

section Clean

variable (env : Env)

/-- `find_jdk`: `javac -version`, through the shell, must exit 0; a shell that cannot be started
counts as no JDK. The search path it returns is not modelled. -/
def findJdk : M Unit := fun w =>
  match execv env .javac w with
  | .ok st w' => if st ≠ 0 then error jdkMessage w' else .ok () w'
  | .error _ w' => error jdkMessage w'

def globRsGens : M (List Path) := fun w => .ok (rsGens w.fs) w

def cleanCpp : M Unit := cppTrees.forM rmRf

def cleanRust : M Unit := do
  rmRf cargoTree
  protoSources.forM rm
  let gens ← globRsGens
  gens.forM rm

def cleanJava : M Unit := do
  findJdk env
  let _ ← execv env (.gradlew gradleCleanTasks)
  stubAssets.forM rmRf

/-- `cleanup`: `args.target` narrowed to a set of scopes, then each scope in it cleaned. -/
def cleanup (target : List String) : M Unit := do
  let scopes := cleanSet target
  (if scopes.contains "cpp" then cleanCpp else pure ())
  (if scopes.contains "rust" then cleanRust else pure ())
  (if scopes.contains "java" then cleanJava env else pure ())

theorem cleanup_eq (target : List String) : cleanup env target = (do
    (if cleanScope target "cpp" then cleanCpp else pure ())
    (if cleanScope target "rust" then cleanRust else pure ())
    (if cleanScope target "java" then cleanJava env else pure ())) := by
  simp only [cleanup, ← cleanScope_eq_contains]

end Clean

theorem wildMatch_nil (s : List Char) : wildMatch [] s = true ↔ s = [] := by
  simp [wildMatch]

theorem wildMatch_star (ps s : List Char) :
    wildMatch ('*' :: ps) s = true ↔ ∃ a b, s = a ++ b ∧ wildMatch ps b = true := by
  simp only [wildMatch, List.any_eq_true, List.mem_tails]
  constructor
  · rintro ⟨b, ⟨a, rfl⟩, h⟩
    exact ⟨a, b, rfl, h⟩
  · rintro ⟨a, b, rfl, h⟩
    exact ⟨b, ⟨a, rfl⟩, h⟩

theorem wildMatch_lit {p : Char} (hp : p ≠ '*') (ps s : List Char) :
    wildMatch (p :: ps) s = true ↔ ∃ s', s = p :: s' ∧ wildMatch ps s' = true := by
  cases s with
  | nil => simp [wildMatch]
  | cons c s =>
    simp only [wildMatch, Bool.and_eq_true, beq_iff_eq, List.cons.injEq]
    constructor
    · rintro ⟨rfl, h⟩
      exact ⟨s, ⟨rfl, rfl⟩, h⟩
    · rintro ⟨s', ⟨rfl, rfl⟩, h⟩
      exact ⟨rfl, h⟩

theorem wildMatch_rsGen (n : List Char) :
    wildMatch rsGenPattern n = true ↔ ∃ a b, n = a ++ "-rs.".toList ++ b ++ "pp".toList := by
  simp only [rsGenPattern, String.toList, wildMatch_star, wildMatch_lit (show '-' ≠ '*' by decide),
    wildMatch_lit (show 'r' ≠ '*' by decide), wildMatch_lit (show 's' ≠ '*' by decide),
    wildMatch_lit (show '.' ≠ '*' by decide), wildMatch_lit (show 'p' ≠ '*' by decide), wildMatch_nil]
  constructor
  · rintro ⟨a, _, rfl, _, rfl, _, rfl, _, rfl, _, rfl, c, _, rfl, _, rfl, _, rfl, rfl⟩
    exact ⟨a, c, by simp⟩
  · rintro ⟨a, c, rfl⟩
    exact ⟨a, _, by simp, _, rfl, _, rfl, _, rfl, _, rfl, c, _, rfl, _, rfl, _, rfl, rfl⟩

theorem mem_rsGens {fs : Fs} {q : Path} : q ∈ rsGens fs ↔ rsGenMatch q ∧ (fs.get q).isSome := by
  rw [rsGens, List.mem_filter, fs.mem_keys]
  constructor
  · rintro ⟨⟨-, h⟩, m⟩
    exact ⟨m, h⟩
  · rintro ⟨m, h⟩
    exact ⟨⟨by rintro rfl; simp [rsGenMatch] at m, h⟩, m⟩

/-- `p` holds nothing and has no regular file above it: removing it again changes nothing. -/
def Cleared (fs : Fs) (p : Path) : Prop := fs.get p = none ∧ ¬ fs.fileAbove p

theorem Cleared.shrink {fs fs' : Fs} {p : Path} (h : Cleared fs p) (shr : fs.Shrinks fs') : Cleared fs' p :=
  ⟨by cases e : fs'.get p with
    | none => rfl
    | some n => exact absurd (shr p n e) (by simp [h.1]),
   fun above => h.2 (shr.fileAbove above)⟩

theorem rsGens_shrink {fs fs' : Fs} (h : rsGens fs = []) (shr : fs.Shrinks fs') : rsGens fs' = [] :=
  List.eq_nil_iff_forall_not_mem.mpr fun q hq => by
    obtain ⟨m, some⟩ := mem_rsGens.mp hq
    obtain ⟨n, hn⟩ := Option.isSome_iff_exists.mp some
    have listed : q ∈ rsGens fs := mem_rsGens.mpr ⟨m, by rw [shr q n hn]; rfl⟩
    simp [h] at listed

section Runs

variable {env : Env} {w w' : World}

theorem forM_rmRf_ok {ps : List Path} (root : [] ∉ ps) (h : (ps.forM rmRf) w = .ok () w') :
    w'.log = w.log ∧ w.fs.Shrinks w'.fs ∧ (∀ p ∈ ps, Cleared w'.fs p) ∧
      ∀ q, (∀ p ∈ ps, ¬ p <+: q) → w'.fs.get q = w.fs.get q := by
  induction ps generalizing w with
  | nil => cases h; exact ⟨rfl, Fs.Shrinks.refl _, by simp, fun _ _ => rfl⟩
  | cons p ps ih =>
    rw [List.forM_cons'] at h
    obtain ⟨_, w₁, h₁, rest⟩ := bind_eq_ok h
    obtain ⟨fs, hfs, rfl⟩ := liftFs_eq_ok w h₁
    obtain ⟨log, shr, cleared, frame⟩ := ih (fun h => root (List.mem_cons_of_mem p h)) rest
    have ne : p ≠ [] := fun e => root (e ▸ List.mem_cons_self p ps)
    have gone : Cleared fs p :=
      ⟨by simp [w.fs.get_of_rmRf hfs, ne],
        fun above => w.fs.rmRf_not_fileAbove hfs ((w.fs.rmRf_shrinks hfs).fileAbove above)⟩
    refine ⟨log, (w.fs.rmRf_shrinks hfs).trans shr, ?_, fun q hq => ?_⟩
    · rintro p' (_ | ⟨_, hp'⟩)
      · exact gone.shrink shr
      · exact cleared p' hp'
    · rw [frame q fun p' hp' => hq p' (List.mem_cons_of_mem p hp'), w.fs.get_of_rmRf hfs,
        if_neg fun e => hq p (List.mem_cons_self p ps) e.2]

theorem forM_rm_ok {ps : List Path} (h : (ps.forM rm) w = .ok () w') :
    w'.log = w.log ∧ w.fs.Shrinks w'.fs ∧ (∀ p ∈ ps, Cleared w'.fs p) ∧
      ∀ q, q ∉ ps → w'.fs.get q = w.fs.get q := by
  induction ps generalizing w with
  | nil => cases h; exact ⟨rfl, Fs.Shrinks.refl _, by simp, fun _ _ => rfl⟩
  | cons p ps ih =>
    rw [List.forM_cons'] at h
    obtain ⟨_, w₁, h₁, rest⟩ := bind_eq_ok h
    obtain ⟨fs, hfs, rfl⟩ := liftFs_eq_ok w h₁
    obtain ⟨log, shr, cleared, frame⟩ := ih rest
    have gone : Cleared fs p :=
      ⟨by simp [w.fs.get_of_rm hfs], fun above => w.fs.rm_not_fileAbove hfs ((w.fs.rm_shrinks hfs).fileAbove above)⟩
    refine ⟨log, (w.fs.rm_shrinks hfs).trans shr, ?_, fun q hq => ?_⟩
    · rintro p' (_ | ⟨_, hp'⟩)
      · exact gone.shrink shr
      · exact cleared p' hp'
    · rw [frame q fun h => hq (List.mem_cons_of_mem p h), w.fs.get_of_rm hfs,
        if_neg fun (e : q = p) => hq (e ▸ List.mem_cons_self p ps)]

theorem forM_rmRf_of_cleared {ps : List Path} (h : ∀ p ∈ ps, Cleared w.fs p) : (ps.forM rmRf) w = .ok () w := by
  induction ps with
  | nil => rfl
  | cons p ps ih =>
    have hp := h p (List.mem_cons_self p ps)
    rw [List.forM_cons', bind_ok (rmRf_ok w (w.fs.rmRf_of_absent hp.1 hp.2))]
    exact ih fun p' h' => h p' (List.mem_cons_of_mem p h')

theorem forM_rm_of_cleared {ps : List Path} (h : ∀ p ∈ ps, Cleared w.fs p) : (ps.forM rm) w = .ok () w := by
  induction ps with
  | nil => rfl
  | cons p ps ih =>
    have hp := h p (List.mem_cons_self p ps)
    rw [List.forM_cons', bind_ok (rm_ok w (w.fs.rm_of_absent hp.1 hp.2))]
    exact ih fun p' h' => h p' (List.mem_cons_of_mem p h')

def CppCleared (fs : Fs) : Prop := ∀ p ∈ cppTrees, Cleared fs p

def RustCleared (fs : Fs) : Prop := Cleared fs cargoTree ∧ (∀ p ∈ protoSources, Cleared fs p) ∧ rsGens fs = []

theorem cleanCpp_ok (h : cleanCpp w = .ok () w') :
    w'.log = w.log ∧ w.fs.Shrinks w'.fs ∧ CppCleared w'.fs ∧
      ∀ q, (∀ p ∈ cppTrees, ¬ p <+: q) → w'.fs.get q = w.fs.get q :=
  forM_rmRf_ok (by decide) h

theorem cleanRust_ok (h : cleanRust w = .ok () w') :
    w'.log = w.log ∧ w.fs.Shrinks w'.fs ∧ RustCleared w'.fs ∧
      ∀ q, ¬ cargoTree <+: q → q ∉ protoSources → rsGenMatch q = false → w'.fs.get q = w.fs.get q := by
  obtain ⟨_, w₁, h₁, h⟩ := bind_eq_ok h
  obtain ⟨fs₁, hfs₁, rfl⟩ := liftFs_eq_ok w h₁
  obtain ⟨_, w₂, h₂, h⟩ := bind_eq_ok h
  obtain ⟨log₂, shr₂, protos, frame₂⟩ := forM_rm_ok h₂
  obtain ⟨gens, w₃, h₃, h⟩ := bind_eq_ok h
  cases h₃
  obtain ⟨log, shr, removed, frame⟩ := forM_rm_ok h
  have shr₁ := w.fs.rmRf_shrinks hfs₁
  have cargo : Cleared fs₁ cargoTree :=
    ⟨by simp [w.fs.get_of_rmRf hfs₁, cargoTree], fun above => w.fs.rmRf_not_fileAbove hfs₁ (shr₁.fileAbove above)⟩
  refine ⟨log.trans log₂, shr₁.trans (shr₂.trans shr), ⟨cargo.shrink (shr₂.trans shr),
    fun p hp => (protos p hp).shrink shr, List.eq_nil_iff_forall_not_mem.mpr fun q hq => ?_⟩, fun q hc hp hg => ?_⟩
  · obtain ⟨m, some⟩ := mem_rsGens.mp hq
    obtain ⟨n, hn⟩ := Option.isSome_iff_exists.mp some
    simp [(removed q (mem_rsGens.mpr ⟨m, by simp [shr q n hn]⟩)).1] at hn
  · rw [frame q fun h => by simp [(mem_rsGens.mp h).1] at hg, frame₂ q hp, w.fs.get_of_rmRf hfs₁, if_neg fun e => hc e.2]

theorem cleanCpp_of_cleared (h : CppCleared w.fs) : cleanCpp w = .ok () w := forM_rmRf_of_cleared h

theorem cleanRust_of_cleared (h : RustCleared w.fs) : cleanRust w = .ok () w := by
  obtain ⟨cargo, protos, gens⟩ := h
  rw [cleanRust, bind_ok (rmRf_ok w (w.fs.rmRf_of_absent cargo.1 cargo.2)), bind_ok (forM_rm_of_cleared protos)]
  simp only [bind_apply, globRsGens, gens]
  rfl

theorem CppCleared.shrink {fs fs' : Fs} (h : CppCleared fs) (shr : fs.Shrinks fs') : CppCleared fs' :=
  fun p hp => (h p hp).shrink shr

theorem CppCleared.get_none {fs : Fs} (h : CppCleared fs) {q : Path} (hq : ∃ p ∈ cppTrees, p <+: q) :
    fs.get q = none :=
  have ⟨p, hp, pre⟩ := hq
  fs.get_below_missing (h p hp).1 pre

theorem RustCleared.get_none {fs : Fs} (h : RustCleared fs) {q : Path}
    (hq : cargoTree <+: q ∨ q ∈ protoSources ∨ rsGenMatch q) : fs.get q = none := by
  obtain ⟨cargo, protos, gens⟩ := h
  rcases hq with pre | hp | m
  · exact fs.get_below_missing cargo.1 pre
  · exact (protos q hp).1
  · cases e : fs.get q with
    | none => rfl
    | some n =>
      have listed : q ∈ rsGens fs := mem_rsGens.mpr ⟨m, by rw [e]; rfl⟩
      simp [gens] at listed

theorem ite_pure_ok {c : Bool} {act : M Unit} (h : (if c then act else pure ()) w = .ok () w') :
    (c → act w = .ok () w') ∧ (c = false → w' = w) := by
  cases c
  · cases h; exact ⟨nofun, fun _ => rfl⟩
  · exact ⟨fun _ => h, nofun⟩

theorem forM_rmRf_returns {ps : List Path} (above : ∀ p ∈ ps, ¬ w.fs.fileAbove p) :
    ∃ w', (ps.forM rmRf) w = .ok () w' ∧ w.fs.Shrinks w'.fs := by
  induction ps generalizing w with
  | nil => exact ⟨w, rfl, Fs.Shrinks.refl _⟩
  | cons p ps ih =>
    obtain ⟨fs, h⟩ := w.fs.rmRf_ok (.inr (above p (List.mem_cons_self p ps)))
    have shr := w.fs.rmRf_shrinks h
    obtain ⟨w', run, shr'⟩ := ih (w := { w with fs }) fun p' hp' h' =>
      above p' (List.mem_cons_of_mem p hp') (shr.fileAbove h')
    exact ⟨w', by rw [List.forM_cons', bind_ok (rmRf_ok w h)]; exact run, shr.trans shr'⟩

theorem forM_rm_returns {ps : List Path} (free : ∀ p ∈ ps, w.fs.get p ≠ some .dir ∧ ¬ w.fs.fileAbove p) :
    ∃ w', (ps.forM rm) w = .ok () w' ∧ w.fs.Shrinks w'.fs := by
  induction ps generalizing w with
  | nil => exact ⟨w, rfl, Fs.Shrinks.refl _⟩
  | cons p ps ih =>
    have hp := free p (List.mem_cons_self p ps)
    obtain ⟨fs, h⟩ := w.fs.rm_returns hp.1 hp.2
    have shr := w.fs.rm_shrinks h
    obtain ⟨w', run, shr'⟩ := ih (w := { w with fs }) fun p' hp' =>
      have old := free p' (List.mem_cons_of_mem p hp')
      ⟨fun d => old.1 (shr p' _ d), fun h' => old.2 (shr.fileAbove h')⟩
    exact ⟨w', by rw [List.forM_cons', bind_ok (rm_ok w h)]; exact run, shr.trans shr'⟩

theorem cleanCpp_returns (above : ∀ p ∈ cppTrees, ¬ w.fs.fileAbove p) :
    ∃ w', cleanCpp w = .ok () w' ∧ w.fs.Shrinks w'.fs :=
  forM_rmRf_returns above

def RustReady (fs : Fs) : Prop :=
  (∀ p ∈ cargoTree :: protoSources, ¬ fs.fileAbove p) ∧ (∀ p ∈ protoSources, fs.get p ≠ some .dir) ∧
    ∀ q ∈ rsGens fs, fs.get q ≠ some .dir

instance : DecidablePred RustReady := fun fs =>
  inferInstanceAs (Decidable ((∀ p ∈ cargoTree :: protoSources, ¬ fs.fileAbove p) ∧
    (∀ p ∈ protoSources, fs.get p ≠ some .dir) ∧ ∀ q ∈ rsGens fs, fs.get q ≠ some .dir))

theorem RustReady.shrink {fs fs' : Fs} (h : RustReady fs) (shr : fs.Shrinks fs') : RustReady fs' := by
  obtain ⟨above, protos, gens⟩ := h
  refine ⟨fun p hp h' => above p hp (shr.fileAbove h'), fun p hp d => protos p hp (shr p _ d), fun q hq d => ?_⟩
  obtain ⟨m, some⟩ := mem_rsGens.mp hq
  exact gens q (mem_rsGens.mpr ⟨m, by rw [shr q _ d]; rfl⟩) (shr q _ d)

theorem cleanRust_returns (ready : RustReady w.fs) : ∃ w', cleanRust w = .ok () w' ∧ w.fs.Shrinks w'.fs := by
  obtain ⟨fs₁, h₁⟩ := w.fs.rmRf_ok (.inr (ready.1 cargoTree (List.mem_cons_self _ _)))
  have shr₁ := w.fs.rmRf_shrinks h₁
  obtain ⟨above, protos, -⟩ := ready.shrink shr₁
  obtain ⟨w₂, h₂, shr₂⟩ := forM_rm_returns (w := { w with fs := fs₁ }) fun p hp =>
    ⟨protos p hp, above p (List.mem_cons_of_mem _ hp)⟩
  obtain ⟨-, -, gens⟩ := ready.shrink (shr₁.trans shr₂)
  obtain ⟨w₃, h₃, shr₃⟩ := forM_rm_returns (w := w₂) fun q (hq : q ∈ rsGens w₂.fs) =>
    ⟨gens q hq, w₂.fs.not_fileAbove_of_get (Option.some_get (mem_rsGens.mp hq).2).symm⟩
  refine ⟨w₃, ?_, shr₁.trans (shr₂.trans shr₃)⟩
  rw [cleanRust, bind_ok (rmRf_ok w h₁), bind_ok h₂]
  exact h₃

def Cleaned (target : List String) (q : Path) : Prop :=
  (cleanScope target "cpp" ∧ ∃ p ∈ cppTrees, p <+: q) ∨
    (cleanScope target "rust" ∧ (cargoTree <+: q ∨ q ∈ protoSources ∨ rsGenMatch q))

instance (target : List String) : DecidablePred (Cleaned target) := fun q =>
  inferInstanceAs (Decidable ((cleanScope target "cpp" ∧ ∃ p ∈ cppTrees, p <+: q) ∨
    (cleanScope target "rust" ∧ (cargoTree <+: q ∨ q ∈ protoSources ∨ rsGenMatch q))))

theorem cleanup_cases {target : List String} (noJava : cleanScope target "java" = false)
    (h : cleanup env target w = .ok () w') : ∃ w₁,
      (if cleanScope target "cpp" then cleanCpp else pure ()) w = .ok () w₁ ∧
      (if cleanScope target "rust" then cleanRust else pure ()) w₁ = .ok () w' := by
  rw [cleanup_eq] at h
  obtain ⟨_, w₁, h₁, h⟩ := bind_eq_ok h
  obtain ⟨_, w₂, h₂, h⟩ := bind_eq_ok h
  rw [noJava] at h
  cases h
  exact ⟨w₁, h₁, h₂⟩

end Runs

theorem cleanup_returns (env : Env) (target : List String) (w : World) (noJava : cleanScope target "java" = false)
    (cpp : ∀ p ∈ cppTrees, ¬ w.fs.fileAbove p) (rust : RustReady w.fs) :
    ∃ w', cleanup env target w = .ok () w' := by
  have part : ∀ {c : Bool} {act : M Unit} {w : World}, (c → ∃ w', act w = .ok () w' ∧ w.fs.Shrinks w'.fs) →
      ∃ w', (if c then act else pure ()) w = .ok () w' ∧ w.fs.Shrinks w'.fs := fun {c} {_} {w} h => by
    cases c
    · exact ⟨w, rfl, Fs.Shrinks.refl _⟩
    · exact h rfl
  obtain ⟨w₁, h₁, shr₁⟩ := part (c := cleanScope target "cpp") fun _ => cleanCpp_returns cpp
  obtain ⟨w₂, h₂, -⟩ := part (c := cleanScope target "rust") fun _ => cleanRust_returns (rust.shrink shr₁)
  refine ⟨w₂, ?_⟩
  rw [cleanup_eq, bind_ok h₁, bind_ok h₂, noJava]
  rfl

def builtTree : Fs where
  entries := archTree.entries ++ [(["native", "libs"], .dir), (["native", "libs", "x86"], .dir),
    (["native", "libs", "x86", "busybox"], .file [0x7f, 0x45, 0x4c, 0x46]), (cargoTree, .dir),
    (["native", "src", "core"], .dir), (["native", "src", "core", "core-rs.cpp"], .file []),
    (["native", "src", "boot"], .dir), (["native", "src", "boot", "proto"], .dir),
    (["native", "src", "boot", "proto", "mod.rs"], .file [])]
  nodup := by decide
  rooted := by decide

/-- A clean run without `java` that returns keeps its log, and leaves exactly the tree it started
from without the trees of its scopes: for `cpp` the ndk-build trees and `native/out`, for `rust`
the cargo tree, the generated protobuf sources and everything `native/**/*-rs.*pp` lists. -/
theorem cleanup_spec (env : Env) (target : List String) {w w' : World}
    (noJava : cleanScope target "java" = false) (h : cleanup env target w = .ok () w') :
    w'.log = w.log ∧ ∀ q, w'.fs.get q = if Cleaned target q then none else w.fs.get q := by
  obtain ⟨w₁, cpp, rust⟩ := cleanup_cases noJava h
  have first : w₁.log = w.log ∧ ∀ q, w₁.fs.get q =
      if cleanScope target "cpp" ∧ ∃ p ∈ cppTrees, p <+: q then none else w.fs.get q := by
    cases c : cleanScope target "cpp"
    · rw [(ite_pure_ok cpp).2 c]; simp
    · obtain ⟨log, -, cleared, frame⟩ := cleanCpp_ok ((ite_pure_ok cpp).1 c)
      refine ⟨log, fun q => ?_⟩
      split_ifs with hq
      · exact cleared.get_none hq.2
      · exact frame q fun p hp pre => hq ⟨rfl, p, hp, pre⟩
  have second : w'.log = w₁.log ∧ ∀ q, w'.fs.get q =
      if cleanScope target "rust" ∧ (cargoTree <+: q ∨ q ∈ protoSources ∨ rsGenMatch q) then none
      else w₁.fs.get q := by
    cases c : cleanScope target "rust"
    · rw [(ite_pure_ok rust).2 c]; simp
    · obtain ⟨log, -, cleared, frame⟩ := cleanRust_ok ((ite_pure_ok rust).1 c)
      refine ⟨log, fun q => ?_⟩
      split_ifs with hq
      · exact cleared.get_none hq.2
      · simp only [true_and, not_or] at hq
        exact frame q hq.1 hq.2.1 (by simpa using hq.2.2)
  refine ⟨second.1.trans first.1, fun q => ?_⟩
  rw [second.2, first.2]
  by_cases hc : Cleaned target q
  · rw [if_pos hc]
    rcases hc with hc | hc <;> simp [hc]
  · rw [if_neg hc]
    simp only [Cleaned, not_or] at hc
    simp [hc.1, hc.2]

/-- A clean run without `java` that returns leaves a tree on which the same run changes nothing. -/
theorem clean_twice_changes_nothing (env : Env) (target : List String) {w w' : World}
    (noJava : cleanScope target "java" = false) (h : cleanup env target w = .ok () w') :
    cleanup env target w' = .ok () w' := by
  obtain ⟨w₁, cpp, rust⟩ := cleanup_cases noJava h
  have rustRan : w₁.fs.Shrinks w'.fs ∧ (cleanScope target "rust" → RustCleared w'.fs) := by
    cases c : cleanScope target "rust"
    · rw [(ite_pure_ok rust).2 c]; exact ⟨Fs.Shrinks.refl _, nofun⟩
    · obtain ⟨-, shr, cleared, -⟩ := cleanRust_ok ((ite_pure_ok rust).1 c)
      exact ⟨shr, fun _ => cleared⟩
  have cppDone : cleanScope target "cpp" → CppCleared w'.fs := fun c =>
    (cleanCpp_ok ((ite_pure_ok cpp).1 c)).2.2.1.shrink rustRan.1
  have again : ∀ {c : Bool} {act : M Unit}, (c → act w' = .ok () w') →
      (if c then act else pure ()) w' = .ok () w' := fun {c} _ h => by cases c <;> simp_all
  rw [cleanup_eq, bind_ok (again fun c => cleanCpp_of_cleared (cppDone c)),
    bind_ok (again fun c => cleanRust_of_cleared (rustRan.2 c)), noJava]
  rfl

theorem clean_native_on_built :
    ∃ w', cleanup bbEnv ["native"] ⟨builtTree, []⟩ = .ok () w' ∧ w'.log = [] ∧
      ∀ q, w'.fs.get q = if Cleaned ["native"] q then none else builtTree.get q := by
  obtain ⟨w', h⟩ := cleanup_returns bbEnv ["native"] ⟨builtTree, []⟩ rfl (by decide) (by decide)
  exact ⟨w', h, cleanup_spec bbEnv ["native"] rfl h⟩

theorem clean_native_twice_on_built :
    ∃ w', cleanup bbEnv ["native"] ⟨builtTree, []⟩ = .ok () w' ∧ cleanup bbEnv ["native"] w' = .ok () w' := by
  obtain ⟨w', h⟩ := cleanup_returns bbEnv ["native"] ⟨builtTree, []⟩ rfl (by decide) (by decide)
  exact ⟨w', h, clean_twice_changes_nothing bbEnv ["native"] rfl h⟩

end MagiskBuild
