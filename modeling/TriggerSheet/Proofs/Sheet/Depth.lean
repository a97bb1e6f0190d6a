import TriggerSheet.Proofs.Sheet.Seam

/-!
# Groups told by depth

A cursor looks ahead for a brace, starts anew behind every stray one, and leaves the bodies to a
reader with a count of its own. One count over the whole text tells the same: a brace that opens at
depth zero opens a group, whose name begins behind the last brace that came back to zero and whose
body ends at the next such brace; and a brace that closes at depth zero is stray.

## Main definitions

* `Text.placesFrom` — the places of a text that pass a test on the depth in front of them
* `Text.openings`, `Text.returns`, `Text.strays` — the braces at depth zero, by what they do
* `Text.groupAt` — the name and the body of the group that is opened at a place
* `Cursor.reach` — the byte offset of the end of the text

## Main results

* `Text.placesFrom_read` — inside a body no brace is at depth zero
* `Cursor.reach_next?` — reading loses no byte
* `Group.all_eq_groupAt` — groups and stray braces are those that the count tells
-/

namespace TriggerSheet

open Text (BraceFree braceFree_cons byteLength depthFrom depthStep)

/-! ### Places -/

namespace Text

/-- The places of a text that pass a test, which is given the depth in front of a place and the
text from there on, where the depth in front of the text is `depth`. -/
def placesFrom (test : ℕ → List Char → Bool) (depth : ℕ) (s : List Char) : List ℕ :=
  (List.range s.length).filter fun i => test (depthFrom depth (s.take i)) (s.drop i)

/-- A brace opens a group: no brace is open in front of it. -/
def opens (depth : ℕ) (rest : List Char) : Bool := rest.head? == some '{' && depth == 0

/-- A closing brace leaves no brace open behind it. -/
def comesBack (depth : ℕ) (rest : List Char) : Bool :=
  rest.head? == some '}' && depthStep depth '}' == 0

/-- A closing brace closes nothing, and an opening one comes later. -/
def isStray (depth : ℕ) (rest : List Char) : Bool :=
  rest.head? == some '}' && depth == 0 && rest.contains '{'

/-- The places of the braces that open a group. -/
def openings (s : List Char) : List ℕ := placesFrom opens 0 s

/-- The places of the closing braces behind which no brace is open. -/
def returns (s : List Char) : List ℕ := placesFrom comesBack 0 s

/-- The places of the closing braces that close nothing and have an opening one behind them. -/
def strays (s : List Char) : List ℕ := placesFrom isStray 0 s

/-- Where the name of a group begins that is opened at a place: behind the last brace that came
back to depth zero, or where the text begins. -/
def nameStart (s : List Char) (i : ℕ) : ℕ := ((returns s).reverse.find? (· < i)).elim 0 (· + 1)

/-- Where the body of a group ends that is opened at a place: at the next brace that comes back to
depth zero, or where the text ends. -/
def bodyStop (s : List Char) (i : ℕ) : ℕ := ((returns s).find? (i < ·)).getD s.length

/-- The name and the body of the group that is opened at a place. -/
def groupAt (s : List Char) (i : ℕ) : List Char × List Char :=
  (trim ((s.take i).drop (nameStart s i)), (s.take (bodyStop s i)).drop (i + 1))

/-- A test that only braces at depth zero pass: those that open, and those behind which the depth is
zero. -/
def Outer (test : ℕ → List Char → Bool) : Prop :=
  ∀ depth rest, test depth rest = true →
    (rest.head? = some '{' ∧ depth = 0) ∨ (rest.head? = some '}' ∧ depthStep depth '}' = 0)

variable {test : ℕ → List Char → Bool} {depth : ℕ} {s t pre rest : List Char} {c : Char}

theorem outer_opens : Outer opens := by
  intro depth rest passed
  rw [opens, Bool.and_eq_true, beq_iff_eq, beq_iff_eq] at passed
  exact .inl passed

theorem outer_comesBack : Outer comesBack := by
  intro depth rest passed
  rw [comesBack, Bool.and_eq_true, beq_iff_eq, beq_iff_eq] at passed
  exact .inr passed

theorem outer_isStray : Outer isStray := by
  intro depth rest passed
  simp only [isStray, Bool.and_eq_true, beq_iff_eq] at passed
  obtain ⟨⟨closes, rfl⟩, -⟩ := passed
  exact .inr ⟨closes, rfl⟩

theorem placesFrom_nil : placesFrom test depth [] = [] := rfl

/-- The places of a text are its first one, if that passes, and those of the rest. -/
theorem placesFrom_cons (c : Char) (s : List Char) :
    placesFrom test depth (c :: s) = (if test depth (c :: s) then [0] else []) ++
      (placesFrom test (depthStep depth c) s).map (· + 1) := by
  rw [placesFrom, List.length_cons, List.range_succ_eq_map, List.filter_cons, List.filter_map]
  cases passed : test depth (c :: s) <;> simp [passed, placesFrom, depthFrom, Function.comp_def]

/-- A character that does not pass only shifts the places of the rest. -/
theorem placesFrom_cons_of_not (failed : test depth (c :: s) = false) :
    placesFrom test depth (c :: s) =
      (placesFrom test (depthStep depth c) s).map (· + 1) := by
  rw [placesFrom_cons, failed]
  rfl

/-- Text without braces has no places. -/
theorem placesFrom_braceFree (outer : Outer test) (free : BraceFree pre) (t : List Char) :
    placesFrom test depth (pre ++ t) = (placesFrom test depth t).map (· + pre.length) := by
  induction pre with
  | nil => simp
  | cons c pre ih =>
    obtain ⟨⟨opening, closing⟩, free⟩ := braceFree_cons.mp free
    have failed : test depth (c :: (pre ++ t)) = false := by
      refine Bool.eq_false_iff.mpr fun passed => ?_
      rcases outer _ _ passed with ⟨here, -⟩ | ⟨here, -⟩
      · exact opening (Option.some.inj here)
      · exact closing (Option.some.inj here)
    have same : depthStep depth c = depth := by rw [depthStep, if_neg opening, if_neg closing]
    rw [List.cons_append, placesFrom_cons_of_not failed, same, ih free, List.map_map]
    simp [Function.comp_def, Nat.add_assoc]

end Text

/-! ### Bodies -/

namespace Body

open Text (Outer placesFrom)

variable {test : ℕ → List Char → Bool} {depth : ℕ} {s : List Char}

/-- A body ends at the brace behind which the depth is zero, and goes on before that. -/
theorem read_step (opened : 0 < depth) (c : Char) (s : List Char) :
    c = '}' ∧ depth = 1 ∧ read depth (c :: s) = ⟨[], 0, s⟩ ∨
      ¬(c = '}' ∧ depthStep depth '}' = 0) ∧ 0 < depthStep depth c ∧
        read depth (c :: s) = (read (depthStep depth c) s).push c := by
  by_cases opening : c = '{'
  · subst opening
    exact .inr ⟨by simp, Nat.succ_pos _, rfl⟩
  by_cases closing : c = '}'
  · subst closing
    have back : depthStep depth '}' = depth - 1 := rfl
    by_cases last : depth - 1 = 0
    · exact .inl ⟨rfl, by omega, by rw [read, if_neg opening, if_pos rfl, if_pos last]⟩
    · exact .inr ⟨fun ends => last ends.2, by omega, by
        rw [read, if_neg opening, if_pos rfl, if_neg last, back]⟩
  · have same : depthStep depth c = depth := by rw [depthStep, if_neg opening, if_neg closing]
    exact .inr ⟨fun ends => closing ends.1, by rwa [same], by
      rw [read, if_neg opening, if_neg closing, same]⟩

/-- A closed body ends at a brace in front of which one brace is open. -/
theorem read_of_closed (opened : 0 < depth) (closed : (read depth s).unclosed = 0) :
    s = (read depth s).text ++ '}' :: (read depth s).rest ∧
      depthFrom depth (read depth s).text = 1 := by
  induction s generalizing depth with
  | nil => exact absurd closed (Nat.pos_iff_ne_zero.mp opened)
  | cons c s ih =>
    rcases read_step opened c s with ⟨rfl, one, ends⟩ | ⟨-, opened', passed⟩
    · rw [ends]
      exact ⟨rfl, one⟩
    · rw [passed] at closed ⊢
      obtain ⟨all, depths⟩ := ih opened' closed
      exact ⟨congrArg (c :: ·) all, depths⟩

/-- Inside a body no brace is at depth zero, nor does one come back to it. -/
theorem placesFrom_read (outer : Outer test) (opened : 0 < depth) (s t : List Char) :
    placesFrom test depth ((read depth s).text ++ t) =
      (placesFrom test (depthFrom depth (read depth s).text) t).map
        (· + (read depth s).text.length) := by
  induction s generalizing depth with
  | nil => simp [read, depthFrom]
  | cons c s ih =>
    rcases read_step opened c s with ⟨-, -, ends⟩ | ⟨inside, opened', passed⟩
    · simp [ends, depthFrom]
    · have failed : test depth (c :: ((read (depthStep depth c) s).text ++ t)) = false := by
        refine Bool.eq_false_iff.mpr fun passed => ?_
        rcases outer _ _ passed with ⟨-, zero⟩ | ⟨here, zero⟩
        · exact absurd zero (Nat.pos_iff_ne_zero.mp opened)
        · exact inside ⟨Option.some.inj here, zero⟩
      rw [passed, push, List.cons_append, Text.placesFrom_cons_of_not failed, ih opened',
        List.map_map]
      simp [Function.comp_def, Nat.add_assoc, depthFrom]

end Body

/-! ### The places of a text, up to its first brace or the end of its first group -/

namespace Text

variable {test : ℕ → List Char → Bool} {s pre rest head after : List Char}

theorem placesFrom_of_braceFree (outer : Outer test) (free : BraceFree s) :
    placesFrom test 0 s = [] := by
  have places : placesFrom test 0 (s ++ []) = [] := placesFrom_braceFree outer free []
  rwa [List.append_nil] at places

/-- Behind a brace that closes nothing, the count begins anew. -/
theorem placesFrom_closing (outer : Outer test) (free : BraceFree pre) (rest : List Char) :
    placesFrom test 0 (pre ++ '}' :: rest) =
      (if test 0 ('}' :: rest) then [pre.length] else []) ++
        (placesFrom test 0 rest).map (· + (pre.length + 1)) := by
  have zero : depthStep 0 '}' = 0 := rfl
  rw [placesFrom_braceFree outer free, placesFrom_cons, zero, List.map_append, List.map_map]
  congr 1
  · split <;> simp
  · refine List.map_congr_left fun i _ => ?_
    simp only [Function.comp_def]
    omega

/-- In front of a body that is never closed there is one place at most, and none in it. -/
theorem placesFrom_unclosed (outer : Outer test) (free : BraceFree pre)
    (unclosed : (Body.read 1 rest).unclosed ≠ 0) :
    placesFrom test 0 (pre ++ '{' :: rest) =
      if test 0 ('{' :: rest) then [pre.length] else [] := by
  have one : depthStep 0 '{' = 1 := rfl
  have inside := Body.placesFrom_read outer Nat.one_pos rest []
  rw [List.append_nil, (Body.read_of_unclosed Nat.one_pos unclosed).1, placesFrom_nil,
    List.map_nil] at inside
  rw [placesFrom_braceFree outer free, placesFrom_cons, one, inside]
  split <;> simp

/-- A closed group has a place at its two outer braces at most, and behind it the count begins
anew. -/
theorem placesFrom_closed (outer : Outer test) (free : BraceFree pre)
    (closed : (Body.read 1 rest).unclosed = 0) (is : head = pre ++ '{' :: (Body.read 1 rest).text) :
    placesFrom test 0 (pre ++ '{' :: rest) =
      (if test 0 ('{' :: rest) then [pre.length] else []) ++
        ((if test 1 ('}' :: (Body.read 1 rest).rest) then [head.length] else []) ++
          (placesFrom test 0 (Body.read 1 rest).rest).map (· + (head.length + 1))) := by
  have one : depthStep 0 '{' = 1 := rfl
  have zero : depthStep 1 '}' = 0 := rfl
  have length : head.length = (Body.read 1 rest).text.length + 1 + pre.length := by
    rw [is, List.length_append, List.length_cons]
    omega
  obtain ⟨all, last⟩ := Body.read_of_closed Nat.one_pos closed
  have inside := Body.placesFrom_read outer Nat.one_pos rest ('}' :: (Body.read 1 rest).rest)
  rw [← all, last, placesFrom_cons, zero] at inside
  rw [placesFrom_braceFree outer free, placesFrom_cons, one, inside, List.map_append,
    List.map_append, List.map_append, List.map_append, length]
  congr 1
  · split <;> simp
  congr 1
  · split <;> simp
  · simp only [List.map_map]
    refine List.map_congr_left fun i _ => ?_
    simp only [Function.comp_def]
    omega

/-- Without an opening brace no brace is stray. -/
theorem strays_of_notMem (flat : '{' ∉ s) : strays s = [] := by
  refine List.filter_eq_nil_iff.mpr fun i _ passed => flat ?_
  simp only [isStray, Bool.and_eq_true, List.contains_iff_mem] at passed
  exact List.mem_of_mem_drop passed.2

/-! ### Behind a brace that comes back -/

theorem take_behind (head after : List Char) (i : ℕ) :
    (head ++ '}' :: after).take (i + (head.length + 1)) = head ++ '}' :: after.take i := by
  have place : i + (head.length + 1) = head.length + (i + 1) := by omega
  rw [place, List.take_length_add_append, List.take_succ_cons]

theorem drop_behind (head after : List Char) (i : ℕ) :
    (head ++ '}' :: after).drop (i + (head.length + 1)) = after.drop i := by
  have place : i + (head.length + 1) = head.length + (i + 1) := by omega
  rw [place, List.drop_length_add_append, List.drop_succ_cons]

/-- What a brace that comes back does not reach is a text of its own. -/
theorem groupAt_behind (back : returns (head ++ '}' :: after) =
      head.length :: (returns after).map (· + (head.length + 1))) (i : ℕ) :
    groupAt (head ++ '}' :: after) (i + (head.length + 1)) = groupAt after i := by
  have start : nameStart (head ++ '}' :: after) (i + (head.length + 1)) =
      nameStart after i + (head.length + 1) := by
    have here : decide (head.length < i + (head.length + 1)) = true := decide_eq_true (by omega)
    rw [nameStart, nameStart, back, List.reverse_cons, ← List.map_reverse, List.find?_append,
      List.find?_map]
    simp only [Function.comp_def, Nat.add_lt_add_iff_right]
    cases (returns after).reverse.find? (· < i) with
    | none => simp [here]
    | some k => simp [Nat.add_right_comm]
  have stop : bodyStop (head ++ '}' :: after) (i + (head.length + 1)) =
      bodyStop after i + (head.length + 1) := by
    have here : decide (i + (head.length + 1) < head.length) = false := decide_eq_false (by omega)
    have length : (head ++ '}' :: after).length = after.length + (head.length + 1) := by
      rw [List.length_append, List.length_cons]
      omega
    rw [bodyStop, bodyStop, back, List.find?_cons, here, List.find?_map, length]
    simp only [Function.comp_def, Nat.add_lt_add_iff_right]
    cases (returns after).find? (i < ·) with
    | none => rfl
    | some k => rfl
  have inside (j k : ℕ) : ((head ++ '}' :: after).take (j + (head.length + 1))).drop
      (k + (head.length + 1)) = (after.take j).drop k := by
    rw [take_behind, drop_behind]
  have next : i + (head.length + 1) + 1 = i + 1 + (head.length + 1) := by omega
  rw [groupAt, start, stop, inside, next, inside, groupAt]

/-- A group in front of which no brace comes back takes its name from where the text begins, and its
body goes up to the first brace that comes back. -/
theorem groupAt_first (later : ∀ k ∈ returns (pre ++ '{' :: rest), pre.length < k) (stop : ℕ)
    (first : (returns (pre ++ '{' :: rest)).head?.getD (pre ++ '{' :: rest).length = stop) :
    groupAt (pre ++ '{' :: rest) pre.length =
      (trim pre, ((pre ++ '{' :: rest).take stop).drop (pre.length + 1)) := by
  have start : nameStart (pre ++ '{' :: rest) pre.length = 0 := by
    have none : (returns (pre ++ '{' :: rest)).reverse.find? (· < pre.length) = none := by
      refine List.find?_eq_none.mpr fun k mem early => ?_
      have late := later k (List.mem_reverse.mp mem)
      have early := of_decide_eq_true early
      omega
    rw [nameStart, none]
    rfl
  have stops : bodyStop (pre ++ '{' :: rest) pre.length = stop := by
    rw [bodyStop, ← first]
    cases all : returns (pre ++ '{' :: rest) with
    | nil => rfl
    | cons k ks =>
      have late : pre.length < k := later k (all ▸ List.mem_cons_self ..)
      rw [List.find?_cons_of_pos (by simpa using late), List.head?_cons]
  rw [groupAt, start, stops, List.drop_zero, List.take_left']
  rfl

theorem groupAt_closed (free : BraceFree pre) (closed : (Body.read 1 rest).unclosed = 0) :
    groupAt (pre ++ '{' :: rest) pre.length = (trim pre, (Body.read 1 rest).text) := by
  obtain ⟨head, is⟩ : ∃ head, head = pre ++ '{' :: (Body.read 1 rest).text := ⟨_, rfl⟩
  have back : returns (pre ++ '{' :: rest) = head.length ::
      (returns (Body.read 1 rest).rest).map (· + (head.length + 1)) :=
    placesFrom_closed outer_comesBack free closed is
  have longer : pre.length < head.length := by
    rw [is, List.length_append, List.length_cons]
    omega
  have later : ∀ k ∈ returns (pre ++ '{' :: rest), pre.length < k := by
    rw [back]
    refine List.forall_mem_cons.mpr ⟨longer, List.forall_mem_map.mpr fun k _ => ?_⟩
    omega
  have body : (pre ++ '{' :: rest).take head.length = head := by
    obtain ⟨all, -⟩ := Body.read_of_closed Nat.one_pos closed
    have whole : pre ++ '{' :: rest = head ++ '}' :: (Body.read 1 rest).rest := by
      conv_lhs => rw [all]
      rw [is, List.append_assoc, List.cons_append]
    rw [whole]
    exact List.take_left' rfl
  rw [groupAt_first later head.length (by rw [back]; rfl), body, is]
  simp

theorem groupAt_unclosed (free : BraceFree pre) (unclosed : (Body.read 1 rest).unclosed ≠ 0) :
    groupAt (pre ++ '{' :: rest) pre.length = (trim pre, rest) := by
  have back : returns (pre ++ '{' :: rest) = [] := placesFrom_unclosed outer_comesBack free unclosed
  have later : ∀ k ∈ returns (pre ++ '{' :: rest), pre.length < k := by
    rw [back]
    exact fun k mem => absurd mem List.not_mem_nil
  rw [groupAt_first later (pre ++ '{' :: rest).length (by rw [back]; rfl),
    List.take_length]
  simp

end Text

/-! ### The groups of a text -/

open Text (groupAt openings returns strays)

variable {s pre rest : List Char}

/-- Behind a closed group stands the brace that closes it. -/
theorem Body.append_of_closed (pre : List Char) (closed : (read 1 rest).unclosed = 0) :
    pre ++ '{' :: rest = (pre ++ '{' :: (read 1 rest).text) ++ '}' :: (read 1 rest).rest := by
  obtain ⟨all, -⟩ := read_of_closed Nat.one_pos closed
  conv_lhs => rw [all]
  rw [List.append_assoc, List.cons_append]

/-- The groups of a text are those that are opened at depth zero. -/
theorem Group.texts_eq_groupAt (s : List Char) :
    texts .sheet s = (openings s).map (groupAt s) := by
  induction s using Text.brace_induction with
  | free s free =>
    rw [texts_of_notMem free.notMem.1, openings, Text.placesFrom_of_braceFree Text.outer_opens free]
    rfl
  | closing pre rest free ih =>
    have back : returns (pre ++ '}' :: rest) =
        pre.length :: (returns rest).map (· + (pre.length + 1)) :=
      Text.placesFrom_closing Text.outer_comesBack free rest
    have opens : openings (pre ++ '}' :: rest) = (openings rest).map (· + (pre.length + 1)) :=
      Text.placesFrom_closing Text.outer_opens free rest
    rw [texts_closing free, ih, opens, List.map_map]
    exact List.map_congr_left fun i _ => (Text.groupAt_behind back i).symm
  | opening pre rest free ih =>
    rw [texts_opening free]
    by_cases closed : (Body.read 1 rest).unclosed = 0
    · -- Behind the brace that closes the first group, the others are those of the rest.
      have back : returns (pre ++ '{' :: rest) = _ :: (returns (Body.read 1 rest).rest).map _ :=
        Text.placesFrom_closed Text.outer_comesBack free closed rfl
      have opens : openings (pre ++ '{' :: rest) = _ :: (openings (Body.read 1 rest).rest).map _ :=
        Text.placesFrom_closed Text.outer_opens free closed rfl
      rw [opens, List.map_cons, List.map_map, Text.groupAt_closed free closed]
      refine congrArg _ ((ih _ (Body.length_rest_read_le 1 rest)).trans ?_)
      refine List.map_congr_left fun i _ => ?_
      rw [Body.append_of_closed pre closed] at back
      rw [Function.comp_apply, Body.append_of_closed pre closed]
      exact (Text.groupAt_behind back i).symm
    · -- The only group goes on to the end of the text.
      obtain ⟨text, left⟩ := Body.read_of_unclosed Nat.one_pos closed
      have opens : openings (pre ++ '{' :: rest) = [pre.length] :=
        Text.placesFrom_unclosed Text.outer_opens free closed
      have none : '{' ∉ Level.sheet.resume [] := List.not_mem_nil
      rw [text, left, texts_of_notMem none, opens, List.map_singleton,
        Text.groupAt_unclosed free closed]

/-! ### Byte offsets -/

namespace Text

variable {c d : Char}

theorem byteLength_append (s t : List Char) :
    byteLength (s ++ t) = byteLength s + byteLength t := by
  induction s with
  | nil => simp [byteLength]
  | cons c s ih =>
    change c.utf8Size + byteLength (s ++ t) = c.utf8Size + byteLength s + byteLength t
    rw [ih, Nat.add_assoc]

theorem byteLength_cons_brace (s : List Char) : byteLength ('}' :: s) = 1 + byteLength s := rfl

/-- The bytes in front of a place behind a brace. -/
theorem byteLength_take_behind (head after : List Char) (i : ℕ) :
    byteLength ((head ++ '}' :: after).take (i + (head.length + 1))) =
      byteLength head + 1 + byteLength (after.take i) := by
  rw [take_behind, byteLength_append, byteLength_cons_brace, Nat.add_assoc]

/-- A text that is left from the first place of a character on begins with that character. -/
theorem eq_of_dropWhile_ne (left : s.dropWhile (· ≠ c) = d :: rest) : d = c := by
  have first := List.head?_dropWhile_not (· ≠ c) s
  rw [left] at first
  simpa using first

end Text

namespace Cursor

variable {c after : Cursor} {passed inside : List Char} {piece : Piece} {offset : ℕ}

/-- The byte offset of the end of the text. -/
def reach (c : Cursor) : ℕ := c.offset + byteLength c.rest

/-- Moving over what stands behind a cursor loses no byte. -/
theorem reach_moveOver (all : c.rest = passed ++ rest) :
    (c.moveOver passed rest).reach = c.reach := by
  rw [reach, reach, all, Text.byteLength_append]
  exact Nat.add_assoc ..

theorem reach_skipSpace (c : Cursor) : c.skipSpace.reach = c.reach :=
  reach_moveOver List.takeWhile_append_dropWhile.symm

theorem reach_passStray (some : '}' ∈ c.rest) : c.passStray.2.reach = c.reach := by
  have up : (c.moveOver (c.rest.takeWhile (· ≠ '}')) (c.rest.dropWhile (· ≠ '}'))).reach =
      c.reach := reach_moveOver List.takeWhile_append_dropWhile.symm
  rw [← up]
  refine reach_moveOver ?_
  cases left : c.rest.dropWhile (· ≠ '}') with
  | nil =>
    have never := List.dropWhile_eq_nil_iff.mp left '}' some
    exact absurd never (by decide)
  | cons d behind =>
    rw [Text.eq_of_dropWhile_ne left]
    rfl

theorem reach_readGroup {name : List Char} (all : c.rest = name ++ '{' :: inside) :
    (c.readGroup name inside).2.reach = c.reach := by
  have up : (c.moveOver (name ++ ['{']) inside).reach = c.reach :=
    reach_moveOver (by rw [all, List.append_assoc, List.singleton_append])
  rw [← up]
  refine reach_moveOver ?_
  change inside = _
  by_cases closed : (Body.read 1 inside).unclosed = 0
  · rw [if_pos closed, List.append_assoc]
    exact (Body.read_of_closed Nat.one_pos closed).1
  · obtain ⟨text, left⟩ := Body.read_of_unclosed Nat.one_pos closed
    rw [if_neg closed, text, left, List.append_nil, List.append_nil]

/-- Reading loses no byte. -/
theorem reach_next? (read : c.next? = some (piece, after)) : after.reach = c.reach := by
  rw [← reach_skipSpace c]
  simp only [next?] at read
  split at read
  · cases read
  · rename_i brace inside opens
    split at read <;> obtain ⟨-, rfl⟩ := Prod.mk.inj (Option.some.inj read)
    · rename_i stray
      exact reach_passStray ((List.takeWhile_prefix _).subset stray)
    · refine reach_readGroup ?_
      rw [Text.eq_of_dropWhile_ne opens] at opens
      rw [← opens]
      exact List.takeWhile_append_dropWhile.symm

/-- A stray brace is one byte long. -/
theorem offset_of_stray (read : c.next? = some (.stray offset, after)) :
    after.offset = offset + 1 := by
  simp only [next?] at read
  split at read
  · cases read
  · split at read
    · obtain ⟨is, rfl⟩ := Prod.mk.inj (Option.some.inj read)
      rw [← Piece.stray.inj is]
      rfl
    · cases (Prod.mk.inj (Option.some.inj read)).1

end Cursor

/-- The offset of a stray brace that is noted. -/
def Note.strayOffset? : Note → Option ℕ
  | strayBrace offset => some offset
  | _ => none

namespace Piece

/-- The offsets of stray braces that are noted while some pieces are passed over. -/
def strayOffsets (pieces : List Piece) : List ℕ :=
  (pieces.flatMap (notes fun _ => [])).filterMap Note.strayOffset?

theorem strayOffsets_stray (offset : ℕ) (pieces : List Piece) :
    strayOffsets (.stray offset :: pieces) = offset :: strayOffsets pieces := rfl

theorem strayOffsets_group (g : Group) (pieces : List Piece) :
    strayOffsets (.group g :: pieces) = strayOffsets pieces := by
  have none : (g.notes ++ []).filterMap Note.strayOffset? = [] := by
    rw [List.append_nil, Group.notes]
    split <;> rfl
  rw [strayOffsets, List.flatMap_cons, List.filterMap_append, notes, none, List.nil_append,
    strayOffsets]

/-- From any cursor on, the stray braces that are noted are those that the count tells. -/
theorem strayOffsets_allFrom (s : List Char) (c : Cursor) (text : c.rest = s) :
    strayOffsets (allFrom .sheet c) =
      (strays s).map fun i => c.offset + byteLength (s.take i) := by
  induction s using Text.brace_induction generalizing c with
  | free s free =>
    rw [allFrom_of_next?_eq_none (Cursor.next?_of_notMem (text ▸ free.notMem.1)),
      Text.strays_of_notMem free.notMem.1]
    rfl
  | closing pre rest free ih =>
    by_cases more : '{' ∈ rest
    · obtain ⟨offset, after, next, left⟩ := Cursor.next?_closing text free more
      have places : strays (pre ++ '}' :: rest) =
          pre.length :: (strays rest).map (· + (pre.length + 1)) := by
        have stray : Text.isStray 0 ('}' :: rest) = true := by simp [Text.isStray, more]
        rw [strays, Text.placesFrom_closing Text.outer_isStray free, stray]
        rfl
      have start : after.offset = c.offset + byteLength pre + 1 := by
        have reach := Cursor.reach_next? next
        rw [Cursor.reach, Cursor.reach, left, text, Text.byteLength_append,
          Text.byteLength_cons_brace] at reach
        omega
      have brace : offset = c.offset + byteLength pre := by
        have one := Cursor.offset_of_stray next
        omega
      rw [allFrom_of_next?_eq_some next, strayOffsets_stray, places, List.map_cons, List.map_map,
        List.take_left' rfl, brace]
      refine congrArg _ ((ih after left).trans (List.map_congr_left fun i _ => ?_))
      rw [Function.comp_apply, Text.byteLength_take_behind, start]
      omega
    · have flat : '{' ∉ pre ++ '}' :: rest := by simp [free.notMem.1, more]
      rw [allFrom_of_next?_eq_none (Cursor.next?_of_notMem (text ▸ flat)),
        Text.strays_of_notMem flat]
      rfl
  | opening pre rest free ih =>
    obtain ⟨g, after, next, -, -, left⟩ := Cursor.next?_opening text free
    have behind := ih _ (Body.length_rest_read_le 1 rest) after left
    rw [allFrom_of_next?_eq_some next, strayOffsets_group]
    refine behind.trans ?_
    by_cases closed : (Body.read 1 rest).unclosed = 0
    · have places : strays (pre ++ '{' :: rest) = (strays (Body.read 1 rest).rest).map _ :=
        Text.placesFrom_closed Text.outer_isStray free closed rfl
      have whole := Body.append_of_closed pre closed
      have start : after.offset =
          c.offset + byteLength (pre ++ '{' :: (Body.read 1 rest).text) + 1 := by
        have reach := Cursor.reach_next? next
        rw [Cursor.reach, Cursor.reach, left, text, whole, Text.byteLength_append,
          Text.byteLength_cons_brace] at reach
        omega
      rw [places, List.map_map]
      refine List.map_congr_left fun i _ => ?_
      rw [Function.comp_apply, whole, Text.byteLength_take_behind, start]
      omega
    · have places : strays (pre ++ '{' :: rest) = [] :=
        Text.placesFrom_unclosed Text.outer_isStray free closed
      rw [places, (Body.read_of_unclosed Nat.one_pos closed).2]
      rfl

end Piece

/-- One count of braces over a whole text tells what a cursor finds in it: the names and bodies of
its groups, and the byte offsets of the stray braces that are noted. -/
theorem Group.all_eq_groupAt (s : List Char) :
    (Group.all .sheet s).map (fun g => (g.name, g.body)) = (openings s).map (groupAt s) ∧
      ((Piece.all .sheet s).flatMap (Piece.notes fun _ => [])).filterMap Note.strayOffset? =
        (strays s).map fun i => byteLength (s.take i) := by
  refine ⟨texts_eq_groupAt s, ?_⟩
  have offsets := Piece.strayOffsets_allFrom s ⟨0, s⟩ rfl
  simp only [Nat.zero_add] at offsets
  exact offsets

example : strays "\x7d é \x7b\x7b\x7d\x7d \x7d \x7b".toList = [0, 9] := by decide

end TriggerSheet
