import BareAnalysis.Scanner.Exact
import BareAnalysis.Scanner.Scan

/-!
# Scanner/Offsets — where a match says its value is

    k e y = h u n t e r 2
    ▲       └── group ──┘         the value is the group, the offset the start of the match

A match carries the value of a capture group and the offset of the whole match.
-/

namespace BareAnalysis

/-- A printable text is spelled inside a run exactly when it stands there in the run: no printable
character follows the run. -/
theorem spells_iff_prefix {encoding : Encoding} {data : Bytes} {start : ℕ} {run value : List Char}
    (hrun : IsPrintableRun encoding data start run) (hvalue : ∀ c ∈ value, IsPrintable c) {n : ℕ}
    (hn : n ≤ run.length) :
    encoding.Spells data (start + encoding.width * n) value ↔ value <+: run.drop n := by
  have hheld := (held_iff_spells run start).mpr ⟨hrun.printable, hrun.spelled⟩
  have hchar : ∀ i, n + i < run.length →
      encoding.charAt data (start + encoding.width * n + encoding.width * i)
        = (run.drop n)[i]? := fun i hi => by
    rw [Nat.add_assoc, ← Nat.mul_add, hheld (n + i) hi, List.getElem?_drop]
  constructor
  · intro hspelled
    have hspells := (held_iff_spells value _).mpr ⟨hvalue, hspelled⟩
    -- Otherwise the character behind the run would be printable.
    have hlength : n + value.length ≤ run.length := by
      by_contra hlong
      have hend := hspells (run.length - n) (by omega)
      rw [Nat.add_assoc, ← Nat.mul_add, Nat.add_sub_cancel' hn,
        charAt_eq_none_iff.mpr hrun.after, List.getElem?_eq_getElem (by omega)] at hend
      cases hend
    refine List.prefix_iff_getElem?.mpr fun i hi => ?_
    rw [← hchar i (by omega), hspells i hi, List.getElem?_eq_getElem hi]
  · intro hahead
    have hlength := hahead.length_le
    rw [List.length_drop] at hlength
    refine ((held_iff_spells value _).mp fun i hi => ?_).2
    rw [hchar i (by omega), List.prefix_iff_getElem?.mp hahead i hi, List.getElem?_eq_getElem hi]

/-- At every match that is reported the group starts where the match does, or the text at the start
of the match repeats the group. -/
def GroupsStartMatches (interp : Interpreter) (pack : ScanPack) (data : Bytes) : Prop :=
  ∀ rule ∈ pack.enabledRules, ∀ encoding start run, IsPrintableRun encoding data start run →
    rule.encodings.contains encoding.text → ∀ k, maxStringLength * k + minStringLength ≤ run.length →
      let text := (cutString encoding start run k).value
      ∀ pattern ∈ rule.patterns, ∀ hit ∈ pattern.hits text, ∀ group ∈ hit.group,
        isReported interp pack rule text (span text group.1 group.2) hit →
          group.1 = hit.start ∨
            span text group.1 group.2 <+: run.drop (maxStringLength * k + hit.start)

section Points

variable {interp : Interpreter} {pack : ScanPack} {data : Bytes}

theorem mem_ruleValues {rule : ScanRule} {text : List Char} {found : List Char × ℕ} :
    found ∈ ruleValues interp pack rule text ↔
      ∃ pattern ∈ rule.patterns, ∃ hit ∈ pattern.hits text, ∃ group ∈ hit.group,
        isReported interp pack rule text (span text group.1 group.2) hit ∧
          found = (span text group.1 group.2, hit.start) := by
  simp only [ruleValues, List.mem_flatMap, List.mem_filterMap, RegexHit.extract]
  constructor
  · rintro ⟨pattern, hpattern, hit, hhit, hfound⟩
    obtain hgroup | ⟨group, hgroup⟩ := Option.eq_none_or_eq_some hit.group
    · rw [hgroup] at hfound
      cases hfound
    · rw [hgroup] at hfound
      refine ⟨pattern, hpattern, hit, hhit, group, hgroup, ?_⟩
      by_cases hreported : isReported interp pack rule text (span text group.1 group.2) hit = true
      · simp only [Option.map_some, hreported, if_true, Option.some_inj] at hfound
        exact ⟨hreported, hfound.symm⟩
      · simp only [Option.map_some, hreported, Bool.false_eq_true, if_false, reduceCtorEq] at hfound
  · rintro ⟨pattern, hpattern, hit, hhit, group, hgroup, hreported, rfl⟩
    refine ⟨pattern, hpattern, hit, hhit, ?_⟩
    rw [Option.mem_def.mp hgroup]
    simp only [Option.map_some, hreported, if_true]

/-- The matches, one for each group that is reported in a piece of a run. -/
theorem mem_scanBytes_iff_group {m : ScanMatch} :
    m ∈ scanBytes interp pack data ↔ ∃ rule ∈ pack.enabledRules, ∃ encoding start run k,
      IsPrintableRun encoding data start run ∧ rule.encodings.contains encoding.text ∧
        maxStringLength * k + minStringLength ≤ run.length ∧
          ∃ found ∈ ruleValues interp pack rule (cutString encoding start run k).value,
            m = (RuleHit.mk rule.id found.1
              (start + encoding.width * (maxStringLength * k + found.2)) encoding).toMatch
                interp data := by
  have hoffset : ∀ (encoding : Encoding) (start k n : ℕ),
      start + encoding.width * (maxStringLength * k) + n * encoding.width
        = start + encoding.width * (maxStringLength * k + n) := fun encoding start k n => by
    rw [Nat.mul_add, Nat.add_assoc, Nat.mul_comm n]
  rw [mem_scanBytes]
  simp only [stringHits, List.mem_flatMap, ruleHits, mem_extractStrings_iff_cut]
  constructor
  · rintro ⟨s, ⟨encoding, start, run, k, hrun, hk, rfl⟩, hit, ⟨rule, hrule, hhit⟩, rfl⟩
    split at hhit
    · rename_i hencoding
      obtain ⟨found, hfound, rfl⟩ := List.mem_map.mp hhit
      refine ⟨rule, hrule, encoding, start, run, k, hrun, hencoding, hk, found, hfound, ?_⟩
      rw [← hoffset]
      rfl
    · cases hhit
  · rintro ⟨rule, hrule, encoding, start, run, k, hrun, hencoding, hk, found, hfound, rfl⟩
    refine ⟨_, ⟨encoding, start, run, k, hrun, hk, rfl⟩, _, ⟨rule, hrule, ?_⟩, rfl⟩
    rw [if_pos (show rule.encodings.contains (cutString encoding start run k).encoding.text = true
      from hencoding)]
    refine List.mem_map.mpr ⟨found, hfound, ?_⟩
    rw [← hoffset]
    rfl

/-- **The offset of every match points at its value exactly when groups start their matches.** -/
theorem offset_points_iff :
    (∀ m ∈ scanBytes interp pack data, m.encoding.Spells data m.offset m.value) ↔
      GroupsStartMatches interp pack data := by
  -- What a hit in a piece of a run comes to.
  have hstep : ∀ rule ∈ pack.enabledRules, ∀ encoding start run,
      IsPrintableRun encoding data start run → ∀ k,
        maxStringLength * k + minStringLength ≤ run.length →
          ∀ found ∈ ruleValues interp pack rule (cutString encoding start run k).value,
            (encoding.Spells data (start + encoding.width * (maxStringLength * k + found.2)) found.1
              ↔ found.1 <+: run.drop (maxStringLength * k + found.2)) := by
    intro rule _ encoding start run hrun k hk found hfound
    obtain ⟨-, hwithin, hle⟩ := of_mem_ruleValues hfound
    refine spells_iff_prefix hrun (fun c hc => hrun.printable c ?_) ?_
    · exact List.mem_of_mem_drop (List.mem_of_mem_take (hwithin.subset hc))
    · rw [length_cutString_value] at hle
      omega
  constructor
  · intro h rule hrule encoding start run hrun hencoding k hk text pattern hpattern hit hhit group
      hgroup hreported
    have hfound := mem_ruleValues.mpr
      ⟨pattern, hpattern, hit, hhit, group, hgroup, hreported, rfl⟩
    exact Or.inr ((hstep rule hrule encoding start run hrun k hk _ hfound).mp
      (h _ (mem_scanBytes_iff_group.mpr
        ⟨rule, hrule, encoding, start, run, k, hrun, hencoding, hk, _, hfound, rfl⟩)))
  · intro h m hm
    obtain ⟨rule, hrule, encoding, start, run, k, hrun, hencoding, hk, found, hfound, rfl⟩ :=
      mem_scanBytes_iff_group.mp hm
    refine (hstep rule hrule encoding start run hrun k hk found hfound).mpr ?_
    obtain ⟨pattern, hpattern, hit, hhit, group, hgroup, hreported, rfl⟩ := mem_ruleValues.mp hfound
    obtain hstart | hahead :=
      h rule hrule encoding start run hrun hencoding k hk pattern hpattern hit hhit group hgroup
        hreported
    · have hcut : span (cutString encoding start run k).value group.1 group.2
          = ((run.drop (maxStringLength * k + hit.start)).take
              (min group.2 maxStringLength - group.1)) := by
        rw [span, cutString, List.take_take, List.drop_take, List.drop_drop, hstart]
      rw [hcut]
      exact List.take_prefix _ _
    · exact hahead

end Points

/-! ## An assignment -/

/-- `re.compile(re.escape(name) + "(" + re.escape(text) + ")")` with `capture: 1`. -/
def Pattern.assigned (name text : List Char) : Pattern where
  hits haystack := (occurrencesFrom (name ++ text) 0 0 haystack).map fun i =>
    ⟨i, i + (name ++ text).length, some (i + name.length, i + (name ++ text).length)⟩
  inside haystack hit hhit := by
    obtain ⟨i, hi, rfl⟩ := List.mem_map.mp hhit
    have hle := le_of_mem_occurrencesFrom hi
    have hstop : i + (name ++ text).length ≤ haystack.length := by omega
    refine ⟨Nat.le_add_right _ _, hstop, fun group hgroup => ?_⟩
    obtain rfl := Option.mem_some_iff.mp hgroup
    refine ⟨?_, hstop⟩
    rw [List.length_append]
    omega

/-- A pack of one rule, for the value of one assignment. -/
def assignedPack (name text : String) : ScanPack where
  version := "1"
  rules := [{ literalRule "assigned" text with
    patterns := [.assigned name.toList text.toList] }]
  hash := ""

/-- The offset of `hunter2` is that of the name it is assigned to. -/
theorem offset_before_value :
    ¬∀ (interp : Interpreter) (pack : ScanPack) (data : Bytes), ∀ m ∈ scanBytes interp pack data,
      m.encoding.Spells data m.offset m.value := by
  intro hclaim
  have hfound : ∃ m ∈ scanBytes asciiInterpreter (assignedPack "key=" "hunter2")
      (ascii "key=hunter2"), m.encoding = .ascii ∧ m.offset = 0 ∧ m.value = "hunter2".toList := by
    decide +kernel
  obtain ⟨m, hm, hencoding, hoffset, hvalue⟩ := hfound
  have hspelled := hclaim _ _ _ m hm
  rw [hencoding, hoffset, hvalue, Encoding.Spells] at hspelled
  exact absurd hspelled (by decide +kernel)

end BareAnalysis
