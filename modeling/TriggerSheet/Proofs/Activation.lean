import Mathlib.Data.String.Basic
import TriggerSheet.Activation
import TriggerSheet.Proofs.Text.Fold
import TriggerSheet.Proofs.Text.Split

/-!
# What a trigger name stands for

A trigger name is looked up as a whole before it is taken apart, and letter case is folded at each
of these steps anew. It comes to the same when the name is folded once, at the start: the activation
depends on the folded name alone, which is a composite word, or two parts around one dot, or an
event of the elements.

## Main definitions

* `Activation.folded` — a name without outer blanks, in lower case
* `Activation.classify` — the activation of a folded name, by priority
* `Activation.readEvent` — the event that a folded word stands for

## Main results

* `Activation.ofName_eq_classify` — a name stands for what its folded form is classified as
* `Activation.eventOf_plain` — an event has no capitals and is never a hover
* `Activation.ofName_eq_classify_folded` — the activation of a name, with what follows for a name
  that differs in its letter case or has an `on` in front of it
-/

namespace TriggerSheet.Activation

open Text (trim lower splitOn IsTrimmed)

/-! ### Folded names -/

/-- A name without outer blanks, in lower case. -/
def folded (name : String) : List Char := lower (trim name.toList)

/-- The composite words, each with its activation. -/
def composites : List (String × Activation) :=
  [("onsing.click", singleClick), ("ondbl.click", doubleClick), ("onhold.click", hold),
    ("reveal.onscroll", reveal), ("domcontent.onload", contentReady)]

/-- The event that a folded word stands for: without one leading `on`, and with `hover` read as the
pointer entering. -/
def readEvent (word : List Char) : String :=
  let bare := if ['o', 'n'].isPrefixOf word then word.drop 2 else word
  if bare = "hover".toList then "mouseenter" else String.ofList bare

/-- The activation of a folded name: that of a composite word; with exactly one dot, an event of the
window if that is named in front of the dot, and of the elements otherwise; and without, or with
more dots, an event of the elements. -/
def classify (name : List Char) : Activation :=
  match composites.lookup (String.ofList name) with
  | some activation => activation
  | none =>
    if name.count '.' = 1 then
      let target := trim (name.takeWhile (· ≠ '.'))
      let event := readEvent (trim ((name.dropWhile (· ≠ '.')).drop 1))
      if target = "window".toList then window event else element event
    else element (readEvent name)

variable {name word target event : List Char}

theorem composite?_eq_lookup (word : String) : composite? word = composites.lookup word := by
  unfold composite?
  split
  case h_6 =>
    symm
    simp only [composites, List.lookup_eq_none_iff, List.forall_mem_cons, bne_iff_ne]
    refine ⟨‹_›, ‹_›, ‹_›, ‹_›, ‹_›, fun pair mem => absurd mem List.not_mem_nil⟩
  all_goals rfl

/-- A composite word has a dot. -/
theorem lookup_composites_of_notMem (flat : '.' ∉ name) :
    composites.lookup (String.ofList name) = none := by
  have dotted : ∀ pair ∈ composites, '.' ∈ pair.1.toList := by decide
  refine List.lookup_eq_none_iff.mpr fun pair mem => ?_
  rw [bne_iff_ne]
  intro is
  have dot := dotted pair mem
  rw [← is, String.toList_ofList] at dot
  exact flat dot

/-! ### Events -/

/-- A word is read as its folded form. -/
theorem eventOf_eq_readEvent (word : List Char) : eventOf word = readEvent (lower word) := by
  have bare (word : List Char) :
      dropOn word = if ['o', 'n'].isPrefixOf word then word.drop 2 else word := by
    unfold dropOn
    split
    next => rfl
    next other =>
      rw [if_neg]
      intro leads
      obtain ⟨rest, is⟩ := List.isPrefixOf_iff_prefix.mp leads
      exact other rest is.symm
  rw [eventOf, readEvent, bare]
  simp only [String.ofList_eq]
  rfl

/-- An event has no capitals and is never a hover. -/
theorem eventOf_plain (word : List Char) :
    (∀ c ∈ (eventOf word).toList, c.isUpper = false) ∧ eventOf word ≠ "hover" := by
  have kept : ∀ c ∈ dropOn (lower word), c ∈ lower word := by
    unfold dropOn
    split
    next rest is =>
      intro c mem
      rw [is]
      exact List.mem_cons_of_mem _ (List.mem_cons_of_mem _ mem)
    next => exact fun c mem => mem
  simp only [eventOf]
  split
  next =>
    have small : EventName.pointerEnter.toList.all (fun c => c.isUpper == false) = true := by decide
    exact ⟨fun c mem => beq_iff_eq.mp (List.all_eq_true.mp small c mem), by decide⟩
  next other =>
    refine ⟨fun c mem => ?_, other⟩
    rw [String.toList_ofList] at mem
    exact Text.not_isUpper_of_mem_lower (kept c mem)

/-! ### Names -/

/-- A name has no dot, or one, or more. -/
theorem dot_cases (name : List Char) :
    '.' ∉ name ∨ (∃ target event, name = target ++ '.' :: event ∧ '.' ∉ target ∧ '.' ∉ event) ∨
      ∃ first second rest, name = first ++ '.' :: (second ++ '.' :: rest) ∧ '.' ∉ first ∧
        '.' ∉ second := by
  by_cases mem : '.' ∈ name
  · obtain ⟨first, behind, rfl, one⟩ := List.eq_append_cons_of_mem mem
    by_cases more : '.' ∈ behind
    · obtain ⟨second, rest, rfl, two⟩ := List.eq_append_cons_of_mem more
      exact .inr (.inr ⟨first, second, rest, rfl, one, two⟩)
    · exact .inr (.inl ⟨first, behind, rfl, one, more⟩)
  · exact .inl mem

theorem mem_dot_lower : '.' ∈ lower name ↔ '.' ∈ name := Text.mem_lower_iff (by decide)

theorem namesWindow_iff (target : List Char) :
    namesWindow (trim target) = true ↔ trim (lower target) = "window".toList := by
  rw [namesWindow, decide_eq_true_iff, Text.trim_lower, String.ofList_eq]

/-- Of a folded name that is no composite word, one dot is looked for. -/
theorem classify_pair (other : composites.lookup (String.ofList (target ++ '.' :: event)) = none)
    (one : '.' ∉ target) (last : '.' ∉ event) :
    classify (target ++ '.' :: event) =
      if trim target = "window".toList then window (readEvent (trim event))
      else element (readEvent (trim event)) := by
  have count : (target ++ '.' :: event).count '.' = 1 := by
    rw [List.count_append, List.count_cons_self, List.count_eq_zero.mpr one,
      List.count_eq_zero.mpr last]
  have passes : ∀ c ∈ target, decide (c ≠ '.') = true :=
    fun c mem => decide_eq_true fun is => one (is ▸ mem)
  have front : (target ++ '.' :: event).takeWhile (· ≠ '.') = target := by
    rw [List.takeWhile_append_of_pos passes, List.takeWhile_cons_of_neg (by decide),
      List.append_nil]
  have behind : (target ++ '.' :: event).dropWhile (· ≠ '.') = '.' :: event := by
    rw [List.dropWhile_append_of_pos passes, List.dropWhile_cons_of_neg (by decide)]
  simp only [classify, other, count, if_true, front, behind, List.drop_succ_cons, List.drop_zero]

theorem classify_of_count_ne_one (other : composites.lookup (String.ofList name) = none)
    (count : name.count '.' ≠ 1) : classify name = element (readEvent name) := by
  simp only [classify, other, if_neg count]

/-- A name without a dot is an event of the elements. -/
theorem classify_of_notMem (flat : '.' ∉ name) : classify name = element (readEvent name) := by
  refine classify_of_count_ne_one (lookup_composites_of_notMem flat) ?_
  rw [List.count_eq_zero.mpr flat]
  exact Nat.zero_ne_one

/-- A trimmed name stands for what its folded form is classified as. -/
theorem ofTrimmed_eq_classify (name : List Char) : ofTrimmed name = classify (lower name) := by
  rw [ofTrimmed, composite?_eq_lookup]
  cases found : composites.lookup (String.ofList (lower name)) with
  | some activation => simp only [classify, found]
  | none =>
    rcases dot_cases name with flat | ⟨target, event, rfl, one, last⟩ |
      ⟨first, second, rest, rfl, one, two⟩
    · rw [Text.splitOn_of_notMem flat, classify_of_notMem (mt mem_dot_lower.mp flat),
        ← eventOf_eq_readEvent]
    · have parts : lower (target ++ '.' :: event) = lower target ++ '.' :: lower event :=
        Text.lower_append target ('.' :: event)
      rw [parts] at found
      rw [Text.splitOn_cut one, Text.splitOn_of_notMem last, parts,
        classify_pair found (mt mem_dot_lower.mp one) (mt mem_dot_lower.mp last)]
      simp only [namesWindow_iff, eventOf_eq_readEvent, Text.trim_lower event]
    · have parts : lower (first ++ '.' :: (second ++ '.' :: rest)) =
          lower first ++ '.' :: (lower second ++ '.' :: lower rest) := by
        simp [lower]
      have count : (lower (first ++ '.' :: (second ++ '.' :: rest))).count '.' ≠ 1 := by
        rw [parts, List.count_append, List.count_cons_self, List.count_append,
          List.count_cons_self]
        omega
      have pieces := Text.splitOn_ne_nil '.' rest
      rw [Text.splitOn_cut one, Text.splitOn_cut two, classify_of_count_ne_one found count,
        ← eventOf_eq_readEvent]
      -- With a third piece, the name is not taken apart.
      cases more : splitOn '.' rest with
      | nil => exact absurd more pieces
      | cons third others => rfl

/-- A name stands for what its folded form is classified as. -/
theorem ofName_eq_classify (name : String) : ofName name = classify (folded name) :=
  ofTrimmed_eq_classify _

/-- Composite words have no event of their own. -/
theorem event?_composite {word : String} {a : Activation} (found : composite? word = some a) :
    a.event? = none := by
  unfold composite? at found
  split at found <;> cases found <;> rfl

/-- An event in what a name stands for was read from some word. -/
theorem exists_eventOf {event : String} (read : (ofTrimmed name).event? = some event) :
    ∃ word, event = eventOf word := by
  rw [ofTrimmed] at read
  split at read
  next found =>
    rw [event?_composite found] at read
    cases read
  next =>
    split at read
    next target word _ =>
      refine ⟨trim word, ?_⟩
      split at read <;> exact (Option.some.inj read).symm
    next => exact ⟨name, (Option.some.inj read).symm⟩

/-- An `on` in front of a name without a dot makes no difference. -/
theorem ofName_on {name : String} (flat : '.' ∉ name.toList)
    (bare : ¬['o', 'n'] <+: lower name.toList) (trimmed : IsTrimmed name.toList) :
    ofName ("on" ++ name) = ofName name := by
  have led : ("on" ++ name).toList = 'o' :: 'n' :: name.toList := String.toList_append
  have trimmed' : IsTrimmed ('o' :: 'n' :: name.toList) := by
    refine Text.trim_eq_self (fun c first => Option.some.inj first ▸ by decide) fun c last => ?_
    cases text : name.toList with
    | nil =>
      rw [text] at last
      obtain rfl : 'n' = c := Option.some.inj last
      decide
    | cons d rest =>
      rw [text, List.getLast?_cons_cons, List.getLast?_cons_cons] at last
      exact trimmed.getLast? c (text ▸ last)
  have flat' : '.' ∉ 'o' :: 'n' :: lower name.toList := by
    simp [mem_dot_lower, flat]
  have folds : folded ("on" ++ name) = 'o' :: 'n' :: lower name.toList := by
    rw [folded, led, trimmed']
    rfl
  have folds' : folded name = lower name.toList := by rw [folded, trimmed]
  have event : readEvent ('o' :: 'n' :: lower name.toList) = readEvent (lower name.toList) := by
    have other : ¬['o', 'n'].isPrefixOf (lower name.toList) = true :=
      mt List.isPrefixOf_iff_prefix.mp bare
    simp [readEvent, other]
  rw [ofName_eq_classify, ofName_eq_classify, folds, folds', classify_of_notMem flat',
    classify_of_notMem (mt mem_dot_lower.mp flat), event]

/-- A name stands for what its folded form is classified as, so names of one folded form stand for
the same. The event in it has no capitals and is never a hover. A name without a dot, and without an
`on` of its own, stands for the same with an `on` in front of it. -/
theorem ofName_eq_classify_folded (name : String) :
    ofName name = classify (folded name) ∧
      (∀ other, folded other = folded name → ofName other = ofName name) ∧
      (∀ event, ofName name = window event ∨ ofName name = element event →
        (∀ c ∈ event.toList, c.isUpper = false) ∧ event ≠ "hover") ∧
      ('.' ∉ name.toList → ¬['o', 'n'] <+: lower name.toList → IsTrimmed name.toList →
        ofName ("on" ++ name) = ofName name) := by
  refine ⟨ofName_eq_classify name, fun other same => ?_, fun event is => ?_, ofName_on⟩
  · rw [ofName_eq_classify, same, ← ofName_eq_classify]
  · have read : (ofName name).event? = some event := by
      rcases is with is | is <;> rw [is] <;> rfl
    obtain ⟨word, rfl⟩ := exists_eventOf read
    exact eventOf_plain word

theorem ofName_hover :
    folded " HOVER\n" = folded "hover" ∧ '.' ∉ "hover".toList ∧
      ofName " HOVER\n" = ofName "hover" ∧ ofName "onhover" = element "mouseenter" := by
  have same : folded " HOVER\n" = folded "hover" := by decide
  obtain ⟨classified, others, -, led⟩ := ofName_eq_classify_folded "hover"
  have led := led (by decide) (by decide) (by decide)
  exact ⟨same, by decide, others _ same, led.trans (classified.trans (by decide))⟩

example : ofName "Window . onHover" = window "mouseenter" := by decide

end TriggerSheet.Activation
