import Mathlib.Tactic.Common
import Mathlib.Data.List.Infix
import MqttWasi.Codec.Topic

namespace MqttWasi

-- Whether the levels behind this one let it stand where it does.
inductive Level (after : List (List Char)) : List Char → Prop
  | plain : ('#' ∉ level) → ('+' ∉ level) → Level after level
  | single : Level after ['+']
  | multi : (after = []) → Level after ['#']

-- The levels of a filter are what stands between its slashes.
def Levels (filter : List Char) : Prop :=
  ∀ before level after, filter.splitOn '/' = before ++ level :: after → Level after level

inductive TopicFilter (s : String) : Prop
  | levels : (s ≠ "") → ¬ (sharePrefix <+: s.toList) → Levels s.toList → TopicFilter s
  | shared (name filter : List Char) :
    (s.toList = sharePrefix ++ name ++ '/' :: filter) → (name ≠ []) →
    ('/' ∉ name ∧ '#' ∉ name ∧ '+' ∉ name) → (filter ≠ []) → Levels filter → TopicFilter s

theorem hasWildcard_eq_false : hasWildcard s = false ↔ '#' ∉ s ∧ '+' ∉ s := by
  simp only [hasWildcard, List.any_eq_false, Bool.or_eq_true, beq_iff_eq, not_or, forall_and]
  constructor
  all_goals
    intro ⟨h, h'⟩
  case mp  => exact ⟨fun hm => h _ hm rfl, fun hm => h' _ hm rfl⟩
  case mpr => exact ⟨fun _ hm he => h (he ▸ hm), fun _ hm he => h' (he ▸ hm)⟩

theorem stripPrefix_eq_some : stripPrefix pre s = some rest ↔ s = pre ++ rest := by
  simp only [stripPrefix, Option.ite_none_right_eq_some, List.isPrefixOf_iff_prefix, Option.some_inj]
  constructor
  case mp =>
    rintro ⟨⟨t, rfl⟩, h⟩
    simp [← h]
  case mpr =>
    rintro rfl
    simp

theorem stripPrefix_eq_none : stripPrefix pre s = none ↔ ¬ (pre <+: s) := by
  simp [stripPrefix]

theorem splitOnce_eq_none : splitOnce sep s = none ↔ sep ∉ s := by
  simp [splitOnce]

theorem splitOnce_append (hn : sep ∉ before) :
    splitOnce sep (before ++ sep :: after) = some (before, after) := by
  have hb : ∀ c ∈ before, (decide (c ≠ sep)) = true := by
    intro c hc
    simpa using fun he : c = sep => hn (he ▸ hc)
  rw [splitOnce, if_pos (by simp), List.takeWhile_append_of_pos hb, List.dropWhile_append_of_pos hb]
  simp

theorem splitOnce_eq_some :
    splitOnce sep s = some (before, after) ↔ s = before ++ sep :: after ∧ sep ∉ before := by
  constructor
  case mp =>
    intro h
    have hm : sep ∈ s := by
      by_contra hn
      simp [splitOnce_eq_none.mpr hn] at h
    obtain ⟨before', after', rfl, hn⟩ := List.eq_append_cons_of_mem hm
    simp only [splitOnce_append hn, Option.some_inj, Prod.mk.injEq] at h
    obtain ⟨rfl, rfl⟩ := h
    exact ⟨rfl, hn⟩
  case mpr =>
    rintro ⟨rfl, hn⟩
    exact splitOnce_append hn

-- A level that passes both checks of the scan is one that may stand there.
theorem level_iff :
    Level after level ↔
      ¬ (level.contains '#' ∧ (level ≠ ['#'] ∨ after ≠ [])) ∧
      ¬ (level.contains '+' ∧ level ≠ ['+']) := by
  constructor
  case mp =>
    intro h
    cases h <;> simp_all
  case mpr =>
    intro ⟨hm, hs⟩
    by_cases hh : '#' ∈ level
    case pos =>
      obtain ⟨rfl, rfl⟩ : level = ['#'] ∧ after = [] := by simpa [hh] using hm
      exact .multi rfl
    case neg =>
      by_cases hp : '+' ∈ level
      case pos =>
        obtain rfl : level = ['+'] := by simpa [hp] using hs
        exact .single
      case neg => exact .plain hh hp

theorem forall_split_cons {P : List α → α → Prop} :
    (∀ before x after, y :: ys = before ++ x :: after → P after x) ↔
      P ys y ∧ ∀ before x after, ys = before ++ x :: after → P after x := by
  constructor
  case mp => exact fun h => ⟨h [] y ys rfl, fun before x after he => h (y :: before) x after (by simp [he])⟩
  case mpr =>
    intro ⟨hy, h⟩ before x after he
    cases before
    case nil =>
      obtain ⟨rfl, rfl⟩ := List.cons_eq_cons.mp he
      exact hy
    case cons => exact h _ _ _ (List.cons_eq_cons.mp he).2

theorem validateFilterLevels_go_ok :
    validateFilterLevels.go levels = .ok () ↔
      ∀ before level after, levels = before ++ level :: after → Level after level := by
  induction levels
  case nil => simp [validateFilterLevels.go]
  case cons level rest ih =>
    rw [forall_split_cons (P := Level), level_iff, ← ih, validateFilterLevels.go]
    split
    case isTrue h => exact iff_of_false (by simp) fun hl => hl.1.1 h
    case isFalse h =>
      split
      case isTrue h' => exact iff_of_false (by simp) fun hl => hl.1.2 h'
      case isFalse h' => exact ⟨fun hr => ⟨⟨h, h'⟩, hr⟩, fun hl => hl.2⟩

theorem validateFilterLevels_ok : validateFilterLevels filter = .ok () ↔ Levels filter :=
  validateFilterLevels_go_ok

-- A filter with the share prefix is never one without, and the first slash ends the share name.
theorem validateTopicFilter_ok : validateTopicFilter s = .ok () ↔ TopicFilter s := by
  rw [validateTopicFilter]
  constructor
  case mp =>
    intro h
    split at h
    case isTrue => simp at h
    case isFalse hs =>
      split at h
      case h_1 hp =>
        exact .levels (by simpa using hs) (stripPrefix_eq_none.mp hp) (validateFilterLevels_ok.mp h)
      case h_2 shared hp =>
        split at h
        case h_1 => simp at h
        case h_2 name filter ho =>
          split at h
          case isTrue => simp at h
          case isFalse hn =>
            split at h
            case isTrue => simp at h
            case isFalse hf =>
              obtain ⟨rfl, hslash⟩ := splitOnce_eq_some.mp ho
              obtain ⟨hne, hw⟩ : name ≠ [] ∧ hasWildcard name = false := by simpa using hn
              have he := stripPrefix_eq_some.mp hp
              refine .shared name filter (by simp [he]) hne ⟨hslash, hasWildcard_eq_false.mp hw⟩ ?_ ?_
              case refine_1 => simpa using hf
              case refine_2 => exact validateFilterLevels_ok.mp h
  case mpr =>
    intro h
    cases h
    case levels hs hp hl =>
      simp [hs, stripPrefix_eq_none.mpr hp, validateFilterLevels_ok.mpr hl]
    case shared name filter he hne hn hf hl =>
      have hs : s ≠ "" := by
        rintro rfl
        simp [sharePrefix] at he
      have hp : stripPrefix sharePrefix s.toList = some (name ++ '/' :: filter) :=
        stripPrefix_eq_some.mpr (by simp [he])
      simp [hs, hp, splitOnce_append hn.1, hne, hasWildcard_eq_false.mpr hn.2, hf,
        validateFilterLevels_ok.mpr hl]

theorem validateTopicName_ok : validateTopicName s = .ok () ↔ s ≠ "" ∧ '#' ∉ s.toList ∧ '+' ∉ s.toList := by
  rw [← hasWildcard_eq_false, validateTopicName]
  split
  case isTrue h => simp_all
  case isFalse h =>
    split
    case isTrue h' => simp [h']
    case isFalse h' => simpa [h'] using h

theorem mem_of_mem_splitOn [BEq α] [LawfulBEq α] {xs : List α} {a c : α}
    (hl : level ∈ xs.splitOn a) (hc : c ∈ level) : c ∈ xs := by
  obtain ⟨i, hi⟩ := List.mem_iff_getElem?.mp hl
  have he : ([a] : List α).intercalate (xs.splitOn a) = xs := List.intercalate_splitOn a
  rw [← he, List.intercalate]
  exact List.mem_flatten.mpr
    ⟨level, List.mem_of_getElem? (List.getElem?_intersperse_two_mul.trans hi), hc⟩

-- Without a wildcard in the filter there is none in any of its levels.
theorem Levels.of_plain (h : '#' ∉ filter) (h' : '+' ∉ filter) : Levels filter := by
  intro before level after he
  have hl : level ∈ filter.splitOn '/' := by simp [he]
  exact .plain (fun hc => h (mem_of_mem_splitOn hl hc)) (fun hc => h' (mem_of_mem_splitOn hl hc))

theorem topicFilter_grammar (s : String) :
    (validateTopicFilter s = .ok () ↔ TopicFilter s) ∧
    (¬ (sharePrefix <+: s.toList) → validateTopicName s = .ok () → validateTopicFilter s = .ok ()) ∧
    (¬ (sharePrefix <+: s.toList) → hasWildcard s.toList = false → validateTopicFilter s = .ok () →
      validateTopicName s = .ok ()) := by
  rw [validateTopicFilter_ok, validateTopicName_ok, hasWildcard_eq_false]
  refine ⟨.rfl, ?_, ?_⟩
  case refine_1 =>
    intro hp ⟨hs, hm, hn⟩
    exact .levels hs hp (.of_plain hm hn)
  case refine_2 =>
    intro hp hw h
    cases h
    case levels hs _ _ => exact ⟨hs, hw⟩
    case shared name filter he _ _ _ _ => exact absurd ⟨name ++ '/' :: filter, by simp [he]⟩ hp

theorem topicFilter_grammar_workers :
    TopicFilter "$share/workers/events/#" ∧
    validateTopicFilter "events/new" = .ok () ∧ validateTopicName "events/new" = .ok () :=
  ⟨(topicFilter_grammar _).1.mp (by decide +kernel),
    (topicFilter_grammar _).2.1 (by decide +kernel) (by decide +kernel),
    (topicFilter_grammar _).2.2 (by decide +kernel) (by decide +kernel) (by decide +kernel)⟩

end MqttWasi
