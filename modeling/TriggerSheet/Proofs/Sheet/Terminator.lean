import TriggerSheet.Proofs.Sheet.Seam

/-!
# Semicolons behind clauses

A clause may end in a semicolon, which means nothing. It is looked for behind the space that follows
the clause, and only there: a blank that is not space, such as a no-break space, hides it. A hidden
semicolon becomes part of the next name, together with the blanks between the two; behind the last
clause it is lost with the rest of the text.

## Main definitions

* `Text.Blanks` — a text of blanks alone
* `Clause.Entry` — a clause as it stands in the body of a block
* `Clause.Entry.isHidden` — the semicolon behind a clause is not found
* `Clause.Entry.found` — what is read of the clauses of a body

## Main results

* `Clause.readAll_resume` — how reading goes on behind a clause
* `Clause.readAll_entries` — what is read of the body of a block
* `Clause.readAll_entries_iff` — semicolons mean nothing if and only if none is hidden
-/

namespace TriggerSheet

open Text (BraceFree IsTrimmed Spaces isBlank isSpace)

/-- A text of blanks alone. -/
def Text.Blanks (s : List Char) : Prop := ∀ c ∈ s, isBlank c = true

instance (s : List Char) : Decidable (Text.Blanks s) := List.decidableBAll (isBlank · = true) s

open Text (Blanks)

/-- A clause as it stands in the body of a block, with the blanks around its name, and with what
ends it. -/
structure Clause.Entry where
  before : List Char
  name : List Char
  behind : List Char
  actions : List Char
  /-- The blanks in front of the semicolon that ends the clause, if there is one. -/
  terminator : Option (List Char)
  before_blank : Blanks before := by decide
  name_ne_nil : name ≠ [] := by decide
  name_trimmed : IsTrimmed name := by decide
  name_braceFree : BraceFree name := by decide
  name_head : name.head? ≠ some ';' := by decide
  behind_blank : Blanks behind := by decide
  actions_braceFree : BraceFree actions := by decide
  terminator_blank : ∀ w ∈ terminator, Blanks w := by decide

namespace Clause

namespace Entry

/-- The same clause without a semicolon behind it. -/
def unended (e : Entry) : Entry :=
  { e with
    terminator := none
    terminator_blank := fun _ mem => absurd mem (Option.not_mem_none _) }

/-- The text of a clause and of what ends it. -/
def text (e : Entry) : List Char :=
  e.before ++ e.name ++ e.behind ++ '{' :: (e.actions ++ '}' :: e.terminator.elim [] (· ++ [';']))

/-- A semicolon ends the clause, but it does not stand behind space alone. -/
def isHidden (e : Entry) : Bool := e.terminator.any fun w => !decide (Spaces w)

/-- What a clause is read as. A hidden semicolon that leads it gets into its name. -/
def clause (led : Bool) (e : Entry) : Clause where
  name := String.ofList (if led then ';' :: (e.before ++ e.name) else e.name)
  actions := Action.readAll e.actions

/-- What is read of the clauses of a body, where `led` tells whether a hidden semicolon stands in
front of them. -/
def found (led : Bool) : List Entry → List Clause
  | [] => []
  | e :: entries => e.clause led :: found e.isHidden entries

end Entry

/-- The body of a block. -/
def body (entries : List Entry) (tail : List Char) : List Char :=
  entries.flatMap Entry.text ++ tail

variable {s t pre tail : List Char} {e : Entry} {entries : List Entry}

/-! ### What a clause is read as -/

theorem Entry.clause_eq_iff (led : Bool) (e : Entry) :
    e.clause led = e.clause false ↔ led = false := by
  cases led with
  | false => simp
  | true =>
    refine iff_of_false (fun same => ?_) Bool.noConfusion
    -- Only a name that was led begins with a semicolon.
    have names := congrArg (fun c : Clause => c.name.toList.head?) same
    simp only [clause, String.toList_ofList] at names
    exact e.name_head names.symm

/-- Only a semicolon behind the last clause may be hidden. -/
theorem Entry.found_eq_iff (led : Bool) (entries : List Entry) :
    Entry.found led entries = entries.map (Entry.clause false) ↔
      (entries = [] ∨ led = false) ∧ ∀ e ∈ entries.dropLast, e.isHidden = false := by
  induction entries generalizing led with
  | nil => simp [Entry.found]
  | cons e entries ih =>
    rw [Entry.found, List.map_cons, List.cons.injEq, e.clause_eq_iff, ih]
    cases entries with
    | nil => simp
    | cons e' entries => simp

theorem Entry.isHidden_eq_false_iff : e.isHidden = false ↔ ∀ w ∈ e.terminator, Spaces w := by
  cases is : e.terminator <;> simp [isHidden, is]

/-! ### Blanks in front of a clause -/

theorem readAll_blank_append (blank : Blanks s) (t : List Char) :
    readAll (s ++ t) = readAll t := by
  rw [readAll_eq, readAll_eq, Group.texts_blank_append blank]

theorem readAll_dropWhile_isSpace (s : List Char) : readAll (s.dropWhile isSpace) = readAll s := by
  have blank : ∀ c ∈ s.takeWhile isSpace, isBlank c = true := fun c mem =>
    Text.isBlank_of_isSpace (List.all_eq_true.mp List.all_takeWhile c mem)
  rw [← readAll_blank_append blank, List.takeWhile_append_dropWhile]

/-- Behind a clause, nothing but the space is passed over, unless a semicolon follows it. -/
theorem resume_of_head? (head : (s.dropWhile isSpace).head? ≠ some ';') :
    Level.block.resume s = s.dropWhile isSpace := by
  simp only [Level.resume]
  split
  next rest is => exact absurd (congrArg List.head? is) head
  next => rfl

theorem ne_of_isBlank {c : Char} (blank : isBlank c = true) : c ≠ ';' :=
  fun is => absurd (is ▸ blank) (by decide)

/-- A semicolon is not found behind blanks where it would not be found without them. -/
theorem head?_dropWhile_blank_append (blank : Blanks pre)
    (clean : (t.dropWhile isSpace).head? ≠ some ';') :
    ((pre ++ t).dropWhile isSpace).head? ≠ some ';' := by
  induction pre with
  | nil => exact clean
  | cons c pre ih =>
    obtain ⟨here, blank⟩ := List.forall_mem_cons.mp blank
    cases space : isSpace c with
    | true =>
      rw [List.cons_append, List.dropWhile_cons_of_pos space]
      exact ih blank
    | false => simpa [space] using ne_of_isBlank here

/-- No semicolon stands in front of a clause, nor in blanks that no clause follows. -/
theorem head?_dropWhile_body (entries : List Entry) (blank : Blanks tail) :
    ((body entries tail).dropWhile isSpace).head? ≠ some ';' := by
  cases entries with
  | nil =>
    have only := head?_dropWhile_blank_append (t := []) blank (by simp)
    rwa [List.append_nil] at only
  | cons e entries =>
    obtain ⟨c, name, is⟩ := List.exists_cons_of_ne_nil e.name_ne_nil
    have stops : isSpace c = false := by
      have clean := e.name_trimmed.head? c (by rw [is]; rfl)
      exact Bool.eq_false_iff.mpr fun space => by simp [Text.isBlank_of_isSpace space] at clean
    have other : c ≠ ';' := fun semicolon => e.name_head (by rw [is, semicolon]; rfl)
    rw [body, List.flatMap_cons, Entry.text]
    simp only [List.append_assoc]
    refine head?_dropWhile_blank_append e.before_blank ?_
    rw [is, List.cons_append, List.dropWhile_cons_of_neg (by simp [stops])]
    simpa using other

/-- A clause without a semicolon is followed by the next; a semicolon is passed over if it is found,
and leads the next name if it is hidden. -/
theorem readAll_resume (e : Entry) (entries : List Entry) (blank : Blanks tail) :
    readAll (Level.block.resume (e.terminator.elim [] (· ++ [';']) ++ body entries tail)) =
      readAll ((if e.isHidden then [';'] else []) ++ body entries tail) := by
  cases is : e.terminator with
  | none =>
    rw [Entry.isHidden, is, Option.elim_none, List.nil_append,
      resume_of_head? (head?_dropWhile_body entries blank), readAll_dropWhile_isSpace]
    rfl
  | some w =>
    have stops : isSpace ';' = false := by decide
    rw [Option.elim_some, List.append_assoc, List.singleton_append]
    by_cases spaces : Spaces w
    · have found : e.isHidden = false := by simp [Entry.isHidden, is, spaces]
      have reached := Text.dropWhile_append_cons_of_pos stops spaces (body entries tail)
      simp only [Level.resume, reached, found]
      rfl
    · have hidden : e.isHidden = true := by simp [Entry.isHidden, is, spaces]
      have blanks := e.terminator_blank w is
      have head : ((w ++ ';' :: body entries tail).dropWhile isSpace).head? ≠ some ';' := by
        rw [Text.dropWhile_append_cons stops]
        cases left : w.dropWhile isSpace with
        | nil => exact absurd (List.dropWhile_eq_nil_iff.mp left) spaces
        | cons c w' =>
          have mem : c ∈ w := (List.dropWhile_sublist isSpace).subset (left ▸ List.mem_cons_self ..)
          simpa using ne_of_isBlank (blanks c mem)
      rw [resume_of_head? head, readAll_dropWhile_isSpace, readAll_blank_append blanks, hidden]
      rfl

/-- A semicolon in front of a clause gets into its name, with the blanks between the two. -/
theorem Entry.trim_name (led : Bool) (e : Entry) :
    Text.trim ((if led then [';'] else []) ++ (e.before ++ e.name ++ e.behind)) =
      if led then ';' :: (e.before ++ e.name) else e.name := by
  cases led with
  | false => exact (Text.trim_surround e.before_blank e.behind_blank e.name).trans e.name_trimmed
  | true =>
    have trimmed : IsTrimmed (';' :: (e.before ++ e.name)) := by
      refine Text.trim_eq_self (fun c first => Option.some.inj first ▸ by decide) fun c last => ?_
      rw [← List.cons_append, List.getLast?_append_of_ne_nil _ e.name_ne_nil] at last
      exact e.name_trimmed.getLast? c last
    exact (Text.trim_append_of_blank e.behind_blank _).trans trimmed

/-- What is read of the body of a block, where a hidden semicolon may stand in front of it. -/
theorem readAll_entries (led : Bool) (entries : List Entry) (blank : Blanks tail) :
    readAll ((if led then [';'] else []) ++ body entries tail) = Entry.found led entries := by
  have lead (led : Bool) : BraceFree (if led then [';'] else []) := by cases led <;> decide
  induction entries generalizing led with
  | nil =>
    have free := Text.braceFree_append.mpr ⟨lead led, Text.braceFree_of_blank blank⟩
    exact readAll_of_notMem free.notMem.1
  | cons e entries ih =>
    have free := Text.braceFree_append.mpr ⟨lead led, Text.braceFree_append.mpr
      ⟨Text.braceFree_append.mpr ⟨Text.braceFree_of_blank e.before_blank, e.name_braceFree⟩,
        Text.braceFree_of_blank e.behind_blank⟩⟩
    have group := readAll_group free (.of_braceFree e.actions_braceFree)
      (e.terminator.elim [] (· ++ [';']) ++ body entries tail)
    rw [readAll_resume e entries blank, ih, e.trim_name] at group
    have named : ofParts? (if led then ';' :: (e.before ++ e.name) else e.name) e.actions =
        some (e.clause led) := by
      refine if_neg fun empty => ?_
      cases led with
      | false => exact e.name_ne_nil (List.isEmpty_iff.mp empty)
      | true => exact List.cons_ne_nil _ _ (List.isEmpty_iff.mp empty)
    rw [named] at group
    simpa [body, Entry.found, Entry.text] using group

/-- Semicolons behind clauses mean nothing if and only if each of them, but for one behind the last
clause, stands behind space alone. -/
theorem readAll_entries_iff (entries : List Entry) (blank : Blanks tail) :
    readAll (body (entries.map Entry.unended) tail) = entries.map (Entry.clause false) ∧
      readAll (body entries tail) = Entry.found false entries ∧
      (readAll (body entries tail) = readAll (body (entries.map Entry.unended) tail) ↔
        ∀ e ∈ entries.dropLast, ∀ w ∈ e.terminator, Spaces w) := by
  have read (entries : List Entry) : readAll (body entries tail) = Entry.found false entries :=
    readAll_entries false entries blank
  have bare : readAll (body (entries.map Entry.unended) tail) =
      entries.map (Entry.clause false) := by
    have same : (entries.map Entry.unended).map (Entry.clause false) =
        entries.map (Entry.clause false) := List.map_map ..
    rw [read, ← same]
    refine (Entry.found_eq_iff false _).mpr ⟨.inr rfl, fun e mem => ?_⟩
    obtain ⟨e', -, rfl⟩ := List.mem_map.mp ((List.dropLast_sublist _).subset mem)
    rfl
  refine ⟨bare, read entries, ?_⟩
  rw [bare, read, Entry.found_eq_iff]
  simp only [Entry.isHidden_eq_false_iff, or_true, true_and]

/-- Two clauses, of which the first ends in a semicolon behind the blanks `w`. -/
def twoEntries (w : List Char) (blank : Blanks w) : List Entry :=
  [{ before := "\n  ".toList
     name := "click".toList
     behind := [' ']
     actions := " text: fall; ".toList
     terminator := some w
     terminator_blank := fun _ mem => Option.some.inj mem ▸ blank },
   { before := [' ']
     name := "hover".toList
     behind := []
     actions := []
     terminator := none }]

/-- Space hides no semicolon. -/
theorem readAll_entries_lineFeed :
    readAll (body (twoEntries "\n\t".toList (by decide)) ['\n']) =
      readAll (body ((twoEntries "\n\t".toList (by decide)).map Entry.unended) ['\n']) := by
  have blank : Blanks ['\n'] := by decide
  obtain ⟨-, -, iff⟩ := readAll_entries_iff (twoEntries "\n\t".toList (by decide)) blank
  exact iff.mpr (by decide)

/-- A no-break space hides the semicolon behind it, which gets into the name of the next clause. -/
theorem readAll_entries_noBreakSpace :
    readAll (body (twoEntries ['\u00a0'] (by decide)) []) =
        [⟨"click", [⟨"text", "fall"⟩]⟩, ⟨"; hover", []⟩] ∧
      readAll (body ((twoEntries ['\u00a0'] (by decide)).map Entry.unended) []) =
        [⟨"click", [⟨"text", "fall"⟩]⟩, ⟨"hover", []⟩] ∧
      readAll (body (twoEntries ['\u00a0'] (by decide)) []) ≠
        readAll (body ((twoEntries ['\u00a0'] (by decide)).map Entry.unended) []) := by
  decide +kernel

end Clause

end TriggerSheet
