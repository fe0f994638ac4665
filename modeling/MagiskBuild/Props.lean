import MagiskBuild.Text
import Mathlib.Data.Option.Defs

/-!
`parse_props`, the reader of config.prop and gradle.properties. The file is read in text mode
and walked line by line. A line is stripped of `" \t\r\n"`; comments, blank lines, lines that `=`
does not split into exactly two parts and lines with an empty value are skipped, and a later key
overrides an earlier one in place.
-/
namespace MagiskBuild

def parseLine (props : Dict) (l : Str) : Dict :=
  let line := strip lineSpace l
  if line.head? = some '#' ∨ line.length = 0 then props
  else match line.splitOn '=' with
    | [key, value] =>
      let value := strip lineSpace value
      if value.length = 0 then props else Dict.insert props (strip lineSpace key) value
    | _ => props

/-- `parse_props` on the decoded text of a file. -/
def parseProps (text : Str) : Dict := (textLines (universalNewlines text)).foldl parseLine []

inductive Eol
  | lf
  | crlf
  | cr
  deriving DecidableEq, Repr, Inhabited

def Eol.text : Eol → Str
  | .lf => ['\n']
  | .crlf => ['\r', '\n']
  | .cr => ['\r']

/-- The text of a file made of `lines`, each ended by its terminator, then `last`, ended by none
(empty when the file ends with a terminator). -/
def fileText (lines : List (Str × Eol)) (last : Str) : Str :=
  lines.flatMap (fun le => le.1 ++ le.2.text) ++ last

/-- A key `parse_props` reads back as written: no `=`, CR or LF, nothing it strips at either end,
and no leading `#`. -/
def ValidKey (k : Str) : Prop :=
  '=' ∉ k ∧ '\r' ∉ k ∧ '\n' ∉ k ∧ (∀ c ∈ k.head?, c ∉ lineSpace) ∧
    (∀ c ∈ k.getLast?, c ∉ lineSpace) ∧ k.head? ≠ some '#'

/-- A value `parse_props` reads back as written: no `=`, CR or LF, nothing it strips at either
end, and not empty. -/
def ValidValue (v : Str) : Prop :=
  '=' ∉ v ∧ '\r' ∉ v ∧ '\n' ∉ v ∧ (∀ c ∈ v.head?, c ∉ lineSpace) ∧
    (∀ c ∈ v.getLast?, c ∉ lineSpace) ∧ v ≠ []

def Skipped (l : Str) : Prop :=
  strip lineSpace l = [] ∨ (strip lineSpace l).head? = some '#' ∨ l.count '=' ≠ 1

instance : DecidablePred ValidKey := fun k => inferInstanceAs (Decidable ('=' ∉ k ∧ _))
instance : DecidablePred ValidValue := fun v => inferInstanceAs (Decidable ('=' ∉ v ∧ _))
instance : DecidablePred Skipped := fun l => inferInstanceAs (Decidable (strip lineSpace l = [] ∨ _))

inductive PropLine
  | entry (key value : Str)
  | other (line : Str)
  deriving DecidableEq, Repr, Inhabited

namespace PropLine

def text : PropLine → Str
  | entry k v => k ++ '=' :: v
  | other l => l

def pair? : PropLine → Option (Str × Str)
  | entry k v => some (k, v)
  | other _ => none

/-- An entry of a valid key and value, or a line without CR or LF that the loop skips. -/
def WellFormed : PropLine → Prop
  | entry k v => ValidKey k ∧ ValidValue v
  | other l => '\r' ∉ l ∧ '\n' ∉ l ∧ Skipped l

instance : DecidablePred WellFormed := fun
  | entry k v => inferInstanceAs (Decidable (ValidKey k ∧ ValidValue v))
  | other l => inferInstanceAs (Decidable ('\r' ∉ l ∧ '\n' ∉ l ∧ Skipped l))

end PropLine

def renderProps (d : Dict) : Str := fileText (d.map fun kv => (kv.1 ++ '=' :: kv.2, Eol.lf)) []

theorem parseLine_cases (props : Dict) (l : Str) :
    parseLine props l = props ∨
      ∃ key value, (strip lineSpace l).splitOn '=' = [key, value] ∧
        (strip lineSpace l).head? ≠ some '#' ∧ strip lineSpace value ≠ [] ∧
        parseLine props l = Dict.insert props (strip lineSpace key) (strip lineSpace value) := by
  unfold parseLine
  dsimp only
  split_ifs with h
  · exact .inl rfl
  · split
    · rename_i key value e
      split_ifs with hv
      · exact .inl rfl
      · exact .inr ⟨key, value, e, fun c => h (.inl c), by simpa using hv, rfl⟩
    · exact .inl rfl

theorem parseLine_blank (props : Dict) {l : Str} (h : strip lineSpace l = []) :
    parseLine props l = props := by
  simp [parseLine, h]

@[simp] theorem parseLine_nil (props : Dict) : parseLine props [] = props :=
  parseLine_blank props rfl

theorem parseLine_newline (props : Dict) (l : Str) : parseLine props (l ++ ['\n']) = parseLine props l := by
  simp only [parseLine, strip_append_of_mem lineSpace (by decide : '\n' ∈ lineSpace)]

theorem strip_entry {k v : Str} (hk : ValidKey k) (hv : ValidValue v) :
    strip lineSpace (k ++ '=' :: v) = k ++ '=' :: v := by
  refine strip_eq_self _ (fun c hc => ?_) (fun c hc => ?_)
  · cases k with
    | nil => simp only [List.nil_append, List.head?_cons, Option.mem_def, Option.some.injEq] at hc; subst hc; decide
    | cons d k => exact hk.2.2.2.1 c (by simpa using hc)
  · have : (('=' :: v).getLast?) = v.getLast? := by
      cases v with
      | nil => exact absurd rfl hv.2.2.2.2.2
      | cons d v => simp
    exact hv.2.2.2.2.1 c (by simpa [this, hv.2.2.2.2.2] using hc)

theorem parseLine_entry (props : Dict) {k v : Str} (hk : ValidKey k) (hv : ValidValue v) :
    parseLine props (k ++ '=' :: v) = Dict.insert props k v := by
  have split : (k ++ '=' :: v).splitOn '=' = [k, v] := splitOn_eq_pair.mpr ⟨rfl, hk.1, hv.1⟩
  have head : (k ++ '=' :: v).head? ≠ some '#' := by
    cases k with
    | nil => simp
    | cons d k => simpa using hk.2.2.2.2.2
  have sk : strip lineSpace k = k := strip_eq_self _ hk.2.2.2.1 hk.2.2.2.2.1
  have sv : strip lineSpace v = v := strip_eq_self _ hv.2.2.2.1 hv.2.2.2.2.1
  simp [parseLine, strip_entry hk hv, split, head, sk, sv, hv.2.2.2.2.2, hk.2.2.2.2.2]

theorem parseLine_skipped (props : Dict) {l : Str} (h : Skipped l) : parseLine props l = props := by
  rcases parseLine_cases props l with same | ⟨key, value, split, head, _, _⟩
  · exact same
  · obtain ⟨whole, hkey, hvalue⟩ := splitOn_eq_pair.mp split
    have once : l.count '=' = 1 := by
      rw [← count_strip lineSpace (by decide), whole]
      simp [List.count_eq_zero_of_not_mem hkey, List.count_eq_zero_of_not_mem hvalue]
    rcases h with blank | comment | count
    · simp [blank] at whole
    · exact absurd comment head
    · exact absurd once count

theorem universalNewlines_cr {rest : Str} (h : rest.head? ≠ some '\n') :
    universalNewlines ('\r' :: rest) = '\n' :: universalNewlines rest := by
  cases rest with
  | nil => rfl
  | cons c rest =>
    have : c ≠ '\n' := fun e => h (by simp [e])
    simp [universalNewlines, this]

theorem fileText_cons (l : Str) (e : Eol) (lines : List (Str × Eol)) (last : Str) :
    fileText ((l, e) :: lines) last = l ++ e.text ++ fileText lines last := by
  simp [fileText]

theorem fileText_head_newline {lines : List (Str × Eol)} {last : Str}
    (clean : ∀ l ∈ last :: lines.map Prod.fst, '\n' ∉ l)
    (h : (fileText lines last).head? = some '\n') : ∃ rest, lines = ([], .lf) :: rest := by
  match lines, clean with
  | [], clean =>
    have := clean last (List.mem_cons_self _ _)
    simp only [fileText, List.flatMap_nil, List.nil_append] at h
    exact absurd (List.mem_of_mem_head? h) this
  | (l, e) :: rest, clean =>
    have hl : '\n' ∉ l := clean l (by simp)
    rw [fileText_cons] at h
    cases l with
    | cons c l => simp only [List.cons_append, List.head?_cons, Option.some.injEq] at h; simp [h] at hl
    | nil => cases e <;> simp_all [Eol.text]

theorem foldl_parseLine_fileText (lines : List (Str × Eol)) (last : Str)
    (clean : ∀ l ∈ last :: lines.map Prod.fst, '\r' ∉ l ∧ '\n' ∉ l) (props : Dict) :
    (textLines (universalNewlines (fileText lines last))).foldl parseLine props =
      (lines.map Prod.fst ++ [last]).foldl parseLine props := by
  obtain ⟨n, h⟩ : ∃ n, lines.length = n := ⟨_, rfl⟩
  induction n using Nat.strong_induction_on generalizing lines props with
  | _ n ih =>
  match lines, clean with
  | [], clean =>
    have hl := clean last (List.mem_cons_self _ _)
    have read : universalNewlines last = last := by
      simpa [universalNewlines] using universalNewlines_append hl.1 []
    simp only [fileText, List.flatMap_nil, List.nil_append, read, textLines_of_not_mem hl.2]
    by_cases e : last = [] <;> simp [e]
  | (l, e) :: rest, clean =>
    have hl : '\r' ∉ l ∧ '\n' ∉ l := clean l (by simp)
    have hrest : ∀ m ∈ last :: rest.map Prod.fst, '\r' ∉ m ∧ '\n' ∉ m :=
      fun m hm => clean m (by simp at hm ⊢; tauto)
    have next : ∀ {rest' : List (Str × Eol)}, rest'.length < n →
        (∀ m ∈ last :: rest'.map Prod.fst, '\r' ∉ m ∧ '\n' ∉ m) → ∀ props,
        (textLines (l ++ '\n' :: universalNewlines (fileText rest' last))).foldl parseLine props =
          (rest'.map Prod.fst ++ [last]).foldl parseLine (parseLine props l) := by
      intro rest' shorter clean' props
      rw [textLines_append_newline hl.2, List.foldl_cons, parseLine_newline]
      exact ih _ shorter rest' clean' _ rfl
    have shorter : rest.length < n := by simp at h; omega
    rw [fileText_cons, List.append_assoc, universalNewlines_append hl.1]
    simp only [List.map_cons, List.cons_append, List.foldl_cons]
    cases e with
    | lf => simpa [Eol.text] using next shorter hrest props
    | crlf => simpa [Eol.text] using next shorter hrest props
    | cr =>
      by_cases join : (fileText rest last).head? = some '\n'
      · obtain ⟨rest', rfl⟩ := fileText_head_newline (fun m hm => (hrest m hm).2) join
        have shorter' : rest'.length < n := by simp at h; omega
        have hrest' : ∀ m ∈ last :: rest'.map Prod.fst, '\r' ∉ m ∧ '\n' ∉ m :=
          fun m hm => hrest m (by simp at hm ⊢; tauto)
        simpa [Eol.text, fileText_cons] using next shorter' hrest' props
      · simpa [Eol.text, universalNewlines_cr join] using next shorter hrest props

theorem PropLine.text_clean {x : PropLine} (h : x.WellFormed) : '\r' ∉ x.text ∧ '\n' ∉ x.text := by
  cases x with
  | entry k v =>
    simp only [text, List.mem_append, List.mem_cons, not_or]
    exact ⟨⟨h.1.2.1, by decide, h.2.2.1⟩, ⟨h.1.2.2.1, by decide, h.2.2.2.1⟩⟩
  | other l => exact ⟨h.1, h.2.1⟩

theorem foldl_parseLine_lines {xs : List PropLine} (wf : ∀ x ∈ xs, x.WellFormed) (props : Dict) :
    (xs.map PropLine.text).foldl parseLine props = Dict.update props (xs.filterMap PropLine.pair?) := by
  induction xs generalizing props with
  | nil => rfl
  | cons x xs ih =>
    have rest := ih (fun y hy => wf y (List.mem_cons_of_mem x hy))
    have hx := wf x (List.mem_cons_self x xs)
    cases x with
    | entry k v => simp [PropLine.text, PropLine.pair?, parseLine_entry props hx.1 hx.2, rest, Dict.update]
    | other l => simp [PropLine.text, PropLine.pair?, parseLine_skipped props hx.2.2, rest]

theorem parseProps_fileText (lines : List (PropLine × Eol)) (last : PropLine)
    (wf : ∀ x ∈ last :: lines.map Prod.fst, x.WellFormed) :
    parseProps (fileText (lines.map fun le => (le.1.text, le.2)) last.text) =
      Dict.update [] ((lines.map Prod.fst ++ [last]).filterMap PropLine.pair?) := by
  have all : ∀ x ∈ lines.map Prod.fst ++ [last], x.WellFormed := fun x hx =>
    wf x (by rw [List.mem_append, List.mem_singleton] at hx; exact List.mem_cons.mpr hx.symm)
  rw [parseProps, foldl_parseLine_fileText, ← foldl_parseLine_lines all]
  · simp [Function.comp_def]
  · intro m hm
    simp only [List.map_map, List.mem_cons, List.mem_map, Function.comp_apply] at hm
    rcases hm with rfl | ⟨le, hle, rfl⟩
    · exact PropLine.text_clean (wf last (List.mem_cons_self _ _))
    · exact PropLine.text_clean (all le.1 (List.mem_append_left _ (List.mem_map_of_mem _ hle)))

def ReadLine (t : Str) : Prop := '\r' ∉ t ∧ ∃ m, '\n' ∉ m ∧ (t = m ∨ t = m ++ ['\n'])

theorem readLine_of_mem {text t : Str} (h : t ∈ textLines (universalNewlines text)) : ReadLine t :=
  ⟨fun hc => cr_not_mem_universalNewlines text (mem_of_mem_textLines h hc), textLines_shape h⟩

/-- What `parse_props` builds: valid keys and values, each key once. -/
def GoodProps (d : Dict) : Prop := (∀ kv ∈ d, ValidKey kv.1 ∧ ValidValue kv.2) ∧ (d.map Prod.fst).Nodup

theorem parseLine_good {props : Dict} {t : Str} (ht : ReadLine t) (hp : GoodProps props) :
    GoodProps (parseLine props t) := by
  rcases parseLine_cases props t with same | ⟨x, y, split, head, nonempty, eq⟩
  · rwa [same]
  obtain ⟨whole, hx, hy⟩ := splitOn_eq_pair.mp split
  obtain ⟨hcr, m, hm, shape⟩ := ht
  have lf : '\n' ∉ strip lineSpace t := by
    rcases shape with rfl | rfl
    · exact fun h => hm (mem_of_mem_strip _ h)
    · rw [strip_append_of_mem _ (by decide)]; exact fun h => hm (mem_of_mem_strip _ h)
  have cr : '\r' ∉ strip lineSpace t := fun h => hcr (mem_of_mem_strip _ h)
  have inx : ∀ {c}, c ∈ x → c ∈ strip lineSpace t := fun h => by rw [whole]; simp [h]
  have iny : ∀ {c}, c ∈ y → c ∈ strip lineSpace t := fun h => by rw [whole]; simp [h]
  have headx : ∀ {c}, c ∈ x.head? → c ∈ (strip lineSpace t).head? := fun hc => by
    rw [whole]; cases x with
    | nil => simp at hc
    | cons d x => simpa using hc
  have key : ValidKey (strip lineSpace x) := by
    refine ⟨fun h => hx (mem_of_mem_strip _ h), fun h => cr (inx (mem_of_mem_strip _ h)),
      fun h => lf (inx (mem_of_mem_strip _ h)), fun _ hc => strip_head_not_mem _ hc,
      fun _ hc => strip_last_not_mem _ hc, fun hash => head ?_⟩
    have kept := strip_head_mem _ (fun _ hc => strip_head_not_mem _ (headx hc))
      (show '#' ∈ (strip lineSpace x).head? from hash)
    exact headx kept
  have value : ValidValue (strip lineSpace y) :=
    ⟨fun h => hy (mem_of_mem_strip _ h), fun h => cr (iny (mem_of_mem_strip _ h)),
      fun h => lf (iny (mem_of_mem_strip _ h)), fun _ hc => strip_head_not_mem _ hc,
      fun _ hc => strip_last_not_mem _ hc, nonempty⟩
  rw [eq]
  refine ⟨fun kv hkv => ?_, Dict.keys_insert_nodup hp.2 _ _⟩
  rcases Dict.mem_insert hkv with rfl | old
  · exact ⟨key, value⟩
  · exact hp.1 kv old

theorem parseProps_good (text : Str) : GoodProps (parseProps text) := by
  have lines : ∀ (ts : List Str) (d : Dict), (∀ t ∈ ts, ReadLine t) → GoodProps d →
      GoodProps (ts.foldl parseLine d) := by
    intro ts
    induction ts with
    | nil => exact fun _ _ h => h
    | cons t ts ih =>
      exact fun d hts hd => ih _ (fun u hu => hts u (List.mem_cons_of_mem t hu))
        (parseLine_good (hts t (List.mem_cons_self t ts)) hd)
  exact lines _ _ (fun _ ht => readLine_of_mem ht) ⟨by simp, List.nodup_nil⟩

theorem parseProps_renderProps (text : Str) :
    parseProps (renderProps (parseProps text)) = parseProps text := by
  have good := parseProps_good text
  have read := parseProps_fileText ((parseProps text).map fun kv => (PropLine.entry kv.1 kv.2, Eol.lf))
    (.other []) (by
      simp only [List.map_map, List.mem_cons, List.mem_map, Function.comp_apply]
      rintro x (rfl | ⟨kv, hkv, rfl⟩)
      · exact ⟨by simp, by simp, .inl rfl⟩
      · exact good.1 kv hkv)
  have text_eq : fileText (((parseProps text).map fun kv => (PropLine.entry kv.1 kv.2, Eol.lf)).map
      fun le => (le.1.text, le.2)) (PropLine.other []).text = renderProps (parseProps text) := by
    simp [renderProps, PropLine.text, Function.comp_def]
  rw [text_eq] at read
  rw [read]
  simpa [Function.comp_def, PropLine.pair?] using Dict.update_of_nodup (a := []) (by simpa using good.2)

/-- A property file whose lines are entries of valid keys and values, interleaved with skipped
lines and ended in any mix of `\n`, `\r\n` and `\r`, reads as its entries inserted in order, a
later key overriding an earlier one in place. Conversely, what `parse_props` returns from any text
holds only valid keys and values, and reads back unchanged once written out as `key=value` lines. -/
theorem parse_props_exact_and_stable :
    (∀ (lines : List (PropLine × Eol)) (last : PropLine),
      (∀ x ∈ last :: lines.map Prod.fst, x.WellFormed) →
        parseProps (fileText (lines.map fun le => (le.1.text, le.2)) last.text) =
          Dict.update [] ((lines.map Prod.fst ++ [last]).filterMap PropLine.pair?)) ∧
    ∀ text : Str, (∀ kv ∈ parseProps text, ValidKey kv.1 ∧ ValidValue kv.2) ∧
      parseProps (renderProps (parseProps text)) = parseProps text :=
  ⟨parseProps_fileText, fun text => ⟨(parseProps_good text).1, parseProps_renderProps text⟩⟩

theorem parse_props_exact_sample :
    (∀ x ∈ PropLine.other [] :: [PropLine.entry "version".toList "26.1".toList,
        .other "# local build".toList, .other [], .entry "version".toList "27".toList], x.WellFormed) ∧
      parseProps (fileText ([(PropLine.entry "version".toList "26.1".toList, Eol.crlf),
          (.other "# local build".toList, .cr), (.other [], .lf),
          (.entry "version".toList "27".toList, .lf)].map fun le => (le.1.text, le.2))
          (PropLine.other []).text) =
        Dict.update [] ([PropLine.entry "version".toList "26.1".toList,
          .other "# local build".toList, .other [], .entry "version".toList "27".toList, .other []].filterMap
          PropLine.pair?) :=
  ⟨by decide, parse_props_exact_and_stable.1 _ _ (by decide)⟩

end MagiskBuild
