import LearningOrbit.Reference.Events

/-!
# The deterministic ecosystem extractor

Six declared patterns, English and Traditional Chinese, each with the
proposition it stands for.
-/

namespace LearningOrbit.Reference

open LearningOrbit (Host)
open LearningOrbit.Text (Pattern)
open LearningOrbit.Text.Pattern (lit dots boundary opt cat oneOf alt)

/-- Deterministic or model-backed proposition adapters; a raise is an error. -/
abbrev PropositionExtractor := ChatEvent → List ChatEvent → Except String (List CandidateProposition)

namespace DeterministicEcosystemExtractor

structure EcosystemPattern where
  regex : Pattern
  head : String
  linkPhrase : String
  tail : String
  family : String

/-- A plural noun: `producers?`. -/
def plural (s : String) : Pattern := cat [lit s, opt (lit "s")]

/-- A whole word: `\b(?:…)\b`. -/
def word (p : Pattern) : Pattern := cat [boundary, p, boundary]

def patterns : List EcosystemPattern :=
  [ { regex := alt
        (cat [lit "sun", dots,
          word (alt (plural "provide") (alt (lit "provided") (alt (plural "give") (lit "given")))),
          dots, lit "energy", dots, plural "producer"])
        (cat [lit "太陽", dots, lit "生產者", dots, oneOf ["能量", "能源"]])
      head := "sun", linkPhrase := "provides energy to", tail := "producers"
      family := "energy_flow" },
    { regex := alt
        (cat [plural "producer", dots,
          word (alt (plural "feed") (alt (lit "feeding")
            (alt (plural "support") (oneOf ["supported", "supporting"])))),
          dots, plural "consumer"])
        (cat [lit "生產者", dots, oneOf ["供養", "供給", "提供"], dots, lit "消費者"])
      head := "producers", linkPhrase := "feed", tail := "consumers", family := "trophic" },
    { regex := alt
        (cat [plural "consumer", dots,
          word (alt (plural "eat") (alt (lit "eaten") (alt (lit "eating")
            (alt (plural "consume") (lit "consumed"))))),
          dots, plural "producer"])
        (cat [lit "消費者", dots, oneOf ["吃", "取食", "攝食"], dots, lit "生產者"])
      head := "consumers", linkPhrase := "consume", tail := "producers", family := "trophic" },
    { regex := alt
        (cat [plural "decomposer", dots,
          word (alt (plural "return") (alt (lit "returned") (alt (lit "returning")
            (alt (plural "recycle") (lit "recycled"))))),
          dots, opt (cat [plural "nutrient", dots]), lit "soil"])
        (cat [lit "分解者", dots, oneOf ["養分", "營養"], dots, lit "土壤"])
      head := "decomposers", linkPhrase := "return nutrients to", tail := "soil"
      family := "nutrient_cycle" },
    { regex := alt
        (cat [lit "soil", dots,
          word (alt (plural "provide") (oneOf ["provided", "supplies", "supplied"])),
          dots, plural "nutrient", dots, plural "producer"])
        (cat [lit "土壤", dots, oneOf ["養分", "營養"], dots, lit "生產者"])
      head := "soil", linkPhrase := "provides nutrients to", tail := "producers"
      family := "nutrient_cycle" },
    { regex := alt
        (cat [lit "energy", dots, word (oneOf ["lost", "released"]),
          dots, lit "heat"])
        (cat [lit "能量", dots, oneOf ["熱", "熱能"], dots, oneOf ["散失", "釋放", "流失"]])
      head := "energy", linkPhrase := "is released as", tail := "heat"
      family := "energy_loss" } ]

/-- `_stance`: opposition first, then uncertainty, then a question mark. -/
def stance (h : Host) (text : String) : Stance :=
  let lowered := h.casefold text
  if ["不同意", "反對", "disagree", "reject"].any (Text.isSubstring · lowered) then .oppose
  else if ["不確定", "可能", "也許", "uncertain", "might", "perhaps"].any
      (Text.isSubstring · lowered) then .uncertain
  else if Text.isSubstring "?" text || Text.isSubstring "？" text then .question
  else .support

def evidenceId (h : Host) (event : ChatEvent) (index : Nat) : String :=
  "ev-" ++ String.ofList ((h.sha256Hex
    (event.eventId ++ ":" ++ toString event.revision ++ ":" ++ toString index)).toList.take 12)

/-- The candidate of one pattern, if it occurs in the text. -/
def candidate (h : Host) (event : ChatEvent) (pattern : EcosystemPattern) (index : Nat) :
    Option CandidateProposition :=
  (pattern.regex.search h event.text).map fun span =>
    { head := pattern.head
      linkPhrase := pattern.linkPhrase
      tail := pattern.tail
      relationFamily := pattern.family
      stance := stance h event.text
      confidence := 95 / 100
      evidence :=
        [{ evidenceId := evidenceId h event index
           eventId := event.eventId
           text := Text.slice event.text span
           start := some span.1
           stop := some span.2
           extractor := "deterministic_fixture"
           sourceConfidence := event.sourceConfidence }]
      inferred := false }

def extract (h : Host) : PropositionExtractor := fun event _ =>
  .ok (patterns.zipIdx.filterMap fun (pattern, index) => candidate h event pattern index)

end DeterministicEcosystemExtractor

end LearningOrbit.Reference
