import BareAnalysis.Scanner.Scan
import Mathlib.Data.Multiset.Bind

/-!
# Scanner/Lines — matching never crosses a line

    p \n │ q        hits of p ⊎ hits of q, as far on as p is long

A newline is not printable, so it ends the string each of the three loops is in, and what a rule
finds in a string depends on the string alone.
-/

namespace BareAnalysis

variable {interp : Interpreter} {pack : ScanPack}

/-- The hit a match reports. -/
def ScanMatch.hit (m : ScanMatch) : RuleHit := ⟨m.ruleId, m.value, m.offset, m.encoding⟩

/-- The same hit, further on in a longer file. -/
def RuleHit.shift (n : ℕ) (hit : RuleHit) : RuleHit := { hit with offset := hit.offset + n }

/-- The hits of a pack in a file. -/
def scanHits (interp : Interpreter) (pack : ScanPack) (data : Bytes) : Multiset RuleHit :=
  ↑((scanBytes interp pack data).map ScanMatch.hit)

/-- A string further on has its hits further on. -/
theorem stringHits_shift (s : ExtractedString) (n : ℕ) :
    stringHits interp pack (s.shift n) = (stringHits interp pack s).map (·.shift n) := by
  have hrule : ∀ rule, ruleHits interp pack rule (s.shift n)
      = (ruleHits interp pack rule s).map (·.shift n) := fun rule => by
    rw [ruleHits, ruleHits, List.map_map]
    refine List.map_congr_left fun found _ => ?_
    simp only [ExtractedString.shift, RuleHit.shift, Function.comp_apply, RuleHit.mk.injEq, true_and,
      and_true]
    omega
  rw [stringHits, stringHits, List.map_flatMap]
  refine List.flatMap_congr fun rule _ => ?_
  rw [hrule]
  show (if rule.encodings.contains s.encoding.text = true then _ else _) = _
  split <;> rfl

/-- **The hits of a file are those of its strings.** -/
theorem scanHits_eq_bind (data : Bytes) :
    scanHits interp pack data
      = (↑(extractStrings data) : Multiset ExtractedString).bind
        fun s => ↑(stringHits interp pack s) := by
  have hsorted : scanHits interp pack data = ↑((pack.enabledRules.flatMap fun rule =>
      (extractStrings data).flatMap fun s =>
        if rule.encodings.contains s.encoding.text then applyRule interp pack rule s data
        else []).map ScanMatch.hit) :=
    Multiset.coe_eq_coe.mpr ((sortBy_perm _ _).map _)
  have happly : ∀ rule s, (if rule.encodings.contains s.encoding.text
      then applyRule interp pack rule s data else []).map ScanMatch.hit
        = if rule.encodings.contains s.encoding.text then ruleHits interp pack rule s else [] := by
    intro rule s
    split
    · rw [applyRule, List.map_map]
      exact List.map_id _
    · rfl
  rw [hsorted]
  simp only [List.map_flatMap, happly, stringHits, ← Multiset.coe_bind]
  exact Multiset.bind_bind _ _

/-- **Matching never crosses a line.** -/
theorem scanHits_append {p : Bytes} (hp : IsLines p) (q : Bytes) :
    scanHits interp pack (p ++ q)
      = scanHits interp pack p + (scanHits interp pack q).map (·.shift p.length) := by
  have hstrings : (↑(extractStrings (p ++ q)) : Multiset ExtractedString)
      = ↑(extractStrings p) + (↑(extractStrings q) : Multiset ExtractedString).map
        (·.shift p.length) := by
    rw [Multiset.map_coe, Multiset.coe_add, Multiset.coe_eq_coe]
    exact extractStrings_append hp q
  rw [scanHits_eq_bind, scanHits_eq_bind, scanHits_eq_bind, hstrings, Multiset.add_bind,
    Multiset.bind_map, Multiset.map_bind]
  congr 1
  refine Multiset.bind_congr fun s _ => ?_
  rw [stringHits_shift, Multiset.map_coe]

/-- A wide secret. -/
def wideSecret : Bytes := ascii "s\x00e\x00c\x00r\x00e\x00t\x00"

/-- …which starts at an odd offset, after a line. -/
theorem scanHits_append_wideSecret :
    scanHits asciiInterpreter (literalPack "secret") (ascii "a secret\n" ++ wideSecret)
      = scanHits asciiInterpreter (literalPack "secret") (ascii "a secret\n")
        + (scanHits asciiInterpreter (literalPack "secret") wideSecret).map (·.shift 9) :=
  scanHits_append (Or.inr ⟨ascii "a secret", by decide⟩) _

end BareAnalysis
