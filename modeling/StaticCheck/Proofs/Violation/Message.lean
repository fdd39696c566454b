import Mathlib.Data.List.Infix
import StaticCheck.Proofs.Text.Quoted
import StaticCheck.Violation

/-!
# A violation can be told from its message

No two violations have the same message (`Violation.message_inj`), although the name of a routine
stands in front of a message as it is and may look like any other message.

All messages but one are words around a quoted name (`Wording`). The words behind the name hold no
quote, and those in front of it end in no backslash, so the name and the words around it can be told
from the message (`Wording.text_inj`). The violation can be told from these: `Violation.ofWording?`
reads it back.
-/

namespace StaticCheck

open Text (quoted)

/-- A quoted name and the words around it. -/
structure Wording where
  before : String
  name : String
  behind : String

namespace Wording

/-- The message with this wording. -/
def text (w : Wording) : String :=
  w.before ++ quoted w.name ++ w.behind

/-- The name can be found in the message: the last quote is the one behind it, and no backslash
stands in front of the first one. -/
structure Plain (w : Wording) : Prop where
  before : w.before.toList.getLast? ≠ some '\\'
  behind : '"' ∉ w.behind.toList

theorem plain_mk {before name behind : String} (hbefore : before.toList.getLast? ≠ some '\\')
    (hbehind : '"' ∉ behind.toList) : Plain ⟨before, name, behind⟩ :=
  ⟨hbefore, hbehind⟩

/-- Words behind the name of a routine end as they do alone. -/
theorem plain_of_owner {owner words name behind : String} (hempty : words.toList ≠ [])
    (hwords : words.toList.getLast? ≠ some '\\') (hbehind : '"' ∉ behind.toList) :
    Plain ⟨owner ++ words, name, behind⟩ := by
  refine plain_mk ?_ hbehind
  rw [String.toList_append, List.getLast?_append_of_ne_nil _ hempty]
  exact hwords

theorem text_inj {v w : Wording} (hv : v.Plain) (hw : w.Plain) (h : v.text = w.text) : v = w := by
  have hlists : v.before.toList ++ (quoted v.name).toList ++ v.behind.toList =
      w.before.toList ++ (quoted w.name).toList ++ w.behind.toList := by
    have htext := congrArg String.toList h
    unfold text at htext
    simpa only [String.toList_append] using htext
  obtain ⟨hbefore, hname, hbehind⟩ :=
    Text.quoted_between_inj hv.before hw.before hv.behind hw.behind hlists
  cases v
  cases w
  cases hname
  cases String.toList_inj.mp hbefore
  cases String.toList_inj.mp hbehind
  rfl

theorem quote_mem_text (w : Wording) : '"' ∈ w.text.toList := by
  simp [text]

end Wording

/-! ## The words in front of a name -/

/-- The text that stands in front of `words` at the end of `text`. -/
def owner? (words text : String) : Option String :=
  (text.toList.dropSuffix? words.toList).map String.ofList

@[simp]
theorem owner?_append (owner words : String) : owner? words (owner ++ words) = some owner := by
  have hsuffix : (owner.toList ++ words.toList).dropSuffix? words.toList = some owner.toList :=
    List.dropSuffix?_eq_some_iff.mpr ⟨words.toList, rfl, beq_self_eq_true _⟩
  simp [owner?, hsuffix]

theorem owner?_eq_none {words text : String} (h : ¬words.toList <:+ text.toList) :
    owner? words text = none := by
  unfold owner?
  rw [Option.map_eq_none_iff, Option.eq_none_iff_forall_ne_some]
  intro front hfront
  obtain ⟨tail, hsplit, htail⟩ := List.dropSuffix?_eq_some_iff.mp hfront
  exact h ⟨front, by rw [hsplit, eq_of_beq htail]⟩

/-- Words are not at the end of a text that ends in others, unless one ends in the other. -/
theorem not_suffix_append {words others : String} (owner : String)
    (h : ¬words.toList <:+ others.toList) (h' : ¬others.toList <:+ words.toList) :
    ¬words.toList <:+ (owner ++ others).toList := by
  intro hwords
  rw [String.toList_append] at hwords
  rcases List.suffix_or_suffix_of_suffix hwords (List.suffix_append _ _) with hsuffix | hsuffix
  · exact h hsuffix
  · exact h' hsuffix

/-! ## The words behind the target of an assignment -/

/-- Reads what is received back from its text. -/
def Received.ofText? (text : String) : Option Received :=
  match text with
  | "Variable" => some var
  | "Unknown" => some unknown
  | name => (Ty.ofName? name).map typed

@[simp]
theorem Received.ofText?_text (received : Received) : ofText? received.text = some received := by
  cases received with
  | typed ty =>
    cases ty with
    | var ty => cases ty <;> rfl
    | none => rfl
  | var => rfl
  | unknown => rfl

/-- The words behind the target of an assignment that receives another type. -/
def mismatchWords (expected : Ty) (received : Received) : String :=
  ": expected " ++ expected.name ++ ", received " ++ received.text

/-- Reads the types back from `mismatchWords`, split at the first comma. -/
def readMismatch? (words : String) : Option (Ty × Received) :=
  let (expected, received) := (words.toList.drop ": expected ".length).span (· ≠ ',')
  match Ty.ofName? (String.ofList expected),
      Received.ofText? (String.ofList (received.drop ", received ".length)) with
  | some expected, some received => some (expected, received)
  | _, _ => none

/-- No name of a type has a comma. -/
theorem span_name (ty : Ty) (rest : List Char) :
    (ty.name.toList ++ ',' :: rest).span (· ≠ ',') = (ty.name.toList, ',' :: rest) := by
  cases ty with
  | var ty => cases ty <;> rfl
  | none => rfl

@[simp]
theorem readMismatch?_mismatchWords (expected : Ty) (received : Received) :
    readMismatch? (mismatchWords expected received) = some (expected, received) := by
  have hwords : (mismatchWords expected received).toList.drop ": expected ".length =
      expected.name.toList ++ ',' :: (" received ".toList ++ received.text.toList) := by
    unfold mismatchWords
    simp only [String.toList_append, List.append_assoc]
    rfl
  have htext : (',' :: (" received ".toList ++ received.text.toList)).drop ", received ".length =
      received.text.toList := rfl
  unfold readMismatch?
  rw [hwords, span_name]
  dsimp only
  rw [htext]
  simp

theorem quote_not_mem_mismatchWords (expected : Ty) (received : Received) :
    '"' ∉ (mismatchWords expected received).toList := by
  have hexpected : '"' ∉ expected.name.toList := by
    cases expected with
    | var ty => cases ty <;> decide
    | none => decide
  have hreceived : '"' ∉ received.text.toList := by
    cases received with
    | typed ty =>
      cases ty with
      | var ty => cases ty <;> decide
      | none => decide
    | var => decide
    | unknown => decide
  unfold mismatchWords
  simp only [String.toList_append, List.mem_append, not_or]
  exact ⟨⟨⟨by decide, hexpected⟩, by decide⟩, hreceived⟩

/-- Words that do not begin with a colon name no two types. -/
theorem mismatchWords_ne {words : String} (h : words.toList.head? ≠ some ':') (expected : Ty)
    (received : Received) : mismatchWords expected received ≠ words := by
  rintro rfl
  apply h
  unfold mismatchWords
  simp only [String.toList_append, List.append_assoc]
  rfl

/-! ## The violation of a message -/

namespace Violation

/-- The wording of the message, if it quotes a name. -/
def wording? : Violation → Option Wording
  | mainMissing => none
  | duplicateGlobal name => some ⟨"global variable ", name, " already declared"⟩
  | routineTakesGlobal name =>
    some ⟨"", name, " conflicts with an already declared global variable"⟩
  | duplicateRoutine name => some ⟨"function or procedure ", name, " already declared"⟩
  | parameterTakesGlobal routine name =>
    some ⟨routine ++ ": parameter ", name, " conflicts with a global variable"⟩
  | duplicateParameter routine name => some ⟨routine ++ ": duplicate parameter ", name, ""⟩
  | localTakesGlobal routine name =>
    some ⟨routine ++ ": local variable ", name, " conflicts with a global variable"⟩
  | duplicateLocal routine name => some ⟨routine ++ ": variable ", name, " already declared"⟩
  | undeclaredVariable name => some ⟨"variable ", name, " not declared in the current scope"⟩
  | undefinedCallee name => some ⟨"function or procedure ", name, " is not defined"⟩
  | procedureAsValue name => some ⟨"procedure ", name, " used in expression context"⟩
  | typeMismatch target expected received =>
    some ⟨"type mismatch in assignment to ", target, mismatchWords expected received⟩

theorem message_eq (e : Violation) :
    e.message = (e.wording?.map Wording.text).getD "main procedure not found" := by
  cases e with
  | routineTakesGlobal name =>
    exact (congrArg (· ++ _) String.empty_append).symm
  | duplicateParameter routine name =>
    exact (String.append_empty (s := message (duplicateParameter routine name))).symm
  | typeMismatch target expected received =>
    change _ = _ ++ quoted target ++ (_ ++ expected.name ++ _ ++ received.text)
    rw [← String.append_assoc, ← String.append_assoc, ← String.append_assoc]
    rfl
  | _ => rfl

theorem message_eq_text {e : Violation} {w : Wording} (h : e.wording? = some w) :
    e.message = w.text := by
  simp [message_eq, h]

theorem eq_mainMissing_of_wording? {e : Violation} (h : e.wording? = none) : e = mainMissing := by
  cases e with
  | mainMissing => rfl
  | _ => cases h

/-- The one message without a name is the one without a quote. -/
theorem wording?_eq_none_iff {e : Violation} : e.wording? = none ↔ '"' ∉ e.message.toList := by
  cases he : e.wording? with
  | none =>
    rw [eq_mainMissing_of_wording? he]
    exact iff_of_true rfl (by decide)
  | some w =>
    rw [message_eq_text he]
    exact iff_of_false (Option.some_ne_none w) (not_not_intro w.quote_mem_text)

theorem plain_wording {e : Violation} {w : Wording} (h : e.wording? = some w) : w.Plain := by
  cases e with
  | mainMissing => cases h
  | parameterTakesGlobal _ _ | duplicateParameter _ _ | localTakesGlobal _ _ | duplicateLocal _ _ =>
    cases h
    exact Wording.plain_of_owner (by decide) (by decide) (by decide)
  | typeMismatch target expected received =>
    cases h
    exact Wording.plain_mk (by decide) (quote_not_mem_mismatchWords expected received)
  | _ =>
    cases h
    exact Wording.plain_mk (by decide) (by decide)

/-- Reads a violation back from the wording of its message. -/
def ofWording? (w : Wording) : Option Violation :=
  match w.behind with
  | " already declared" =>
    match owner? ": variable " w.before with
    | some routine => some (duplicateLocal routine w.name)
    | none =>
      if w.before = "global variable " then
        some (duplicateGlobal w.name)
      else
        some (duplicateRoutine w.name)
  | " conflicts with an already declared global variable" => some (routineTakesGlobal w.name)
  | " conflicts with a global variable" =>
    match owner? ": parameter " w.before with
    | some routine => some (parameterTakesGlobal routine w.name)
    | none => (owner? ": local variable " w.before).map (localTakesGlobal · w.name)
  | "" => (owner? ": duplicate parameter " w.before).map (duplicateParameter · w.name)
  | " not declared in the current scope" => some (undeclaredVariable w.name)
  | " is not defined" => some (undefinedCallee w.name)
  | " used in expression context" => some (procedureAsValue w.name)
  | words => (readMismatch? words).map fun (expected, received) =>
    typeMismatch w.name expected received

theorem ofWording?_wording {e : Violation} {w : Wording} (h : e.wording? = some w) :
    ofWording? w = some e := by
  cases e with
  | mainMissing => cases h
  | duplicateGlobal name =>
    cases h
    have hglobal : owner? ": variable " "global variable " = none := owner?_eq_none (by decide)
    simp [ofWording?, hglobal]
  | duplicateRoutine name =>
    cases h
    have hroutine : owner? ": variable " "function or procedure " = none :=
      owner?_eq_none (by decide)
    have hother : "function or procedure " ≠ "global variable " := by decide
    simp [ofWording?, hroutine, hother]
  | parameterTakesGlobal routine name =>
    cases h
    simp [ofWording?]
  | duplicateParameter routine name =>
    cases h
    simp [ofWording?]
  | localTakesGlobal routine name =>
    cases h
    have hlocal : owner? ": parameter " (routine ++ ": local variable ") = none :=
      owner?_eq_none (not_suffix_append routine (by decide) (by decide))
    simp [ofWording?, hlocal]
  | duplicateLocal routine name =>
    cases h
    simp [ofWording?]
  | typeMismatch target expected received =>
    cases h
    unfold ofWording?
    split
    -- no other words behind a name begin with a colon
    iterate 7
      · next hwords => exact absurd hwords (mismatchWords_ne (by decide) expected received)
    simp
  | _ =>
    cases h
    rfl

/-- Two violations with the same message are the same. -/
theorem message_inj (e f : Violation) : e.message = f.message ↔ e = f := by
  constructor
  · intro h
    cases he : e.wording? with
    | none =>
      have hf : f.wording? = none := by
        rw [wording?_eq_none_iff, ← h, ← wording?_eq_none_iff, he]
      rw [eq_mainMissing_of_wording? he, eq_mainMissing_of_wording? hf]
    | some v =>
      have hsome : f.wording? ≠ none := by
        rw [Ne, wording?_eq_none_iff, ← h, ← wording?_eq_none_iff, he]
        exact Option.some_ne_none v
      obtain ⟨w, hf⟩ := Option.ne_none_iff_exists'.mp hsome
      have htext : v.text = w.text := by
        rw [← message_eq_text he, h, message_eq_text hf]
      have hwording : v = w := Wording.text_inj (plain_wording he) (plain_wording hf) htext
      subst hwording
      exact Option.some.inj ((ofWording?_wording he).symm.trans (ofWording?_wording hf))
  · exact congrArg message

/-- The name of a routine can repeat a whole message, but the last quoted name tells them apart. -/
example : (duplicateLocal "variable \"a\" not declared in the current scope" "b").message =
    "variable \"a\" not declared in the current scope: variable \"b\" already declared" := by
  rfl

end Violation

end StaticCheck
