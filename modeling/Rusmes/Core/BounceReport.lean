import Rusmes.Core.BounceParts

/-!
The delivery report of a bounce as it is read: groups of fields with empty lines between them.
-/

namespace Rusmes

open WireText

def reportLines (text : Text) : List Text := (splitOn '\n' text).map stripReturn

def statusField (line : Text) : Option (Text × Text) :=
  if line.head? = some ' ' ∨ line.head? = some '\t' then none
  else (splitOnce ':' line).map fun field => ((trim field.1).map Char.toLower, trim field.2)

theorem splitOn_label {label : Text} (whole : '\n' ∉ label) (value : Text) :
    splitOn '\n' (label ++ value) = (splitOn '\n' value).modifyHead (label ++ ·) := by
  obtain ⟨first, others, parts⟩ := List.exists_cons_of_ne_nil (splitOn_ne_nil '\n' value)
  induction label with
  | nil => rw [parts]; simp [parts]
  | cons character label ih =>
      rw [List.mem_cons, not_or] at whole
      rw [List.cons_append, splitOn_cons_ne (Ne.symm whole.1), ih whole.2, parts]
      rfl

theorem reportLines_label {label : Text} (whole : '\n' ∉ label) (value : Text) :
    ∃ first, reportLines (label ++ value) =
        stripReturn (label ++ first) :: (reportLines value).tail ∧
      ('\n' ∉ value → first = value) := by
  obtain ⟨first, others, parts⟩ := List.exists_cons_of_ne_nil (splitOn_ne_nil '\n' value)
  refine ⟨first, ?_, fun single => ?_⟩
  · rw [reportLines, splitOn_label whole, reportLines, parts]
    rfl
  · rw [splitOn_unbroken single, List.cons.injEq] at parts
    exact parts.1.symm

theorem stripReturn_colon (name rest : Text) :
    ∃ kept, stripReturn (name ++ ':' :: rest) = name ++ ':' :: kept ∧
      ('\r' ∉ rest → kept = rest) := by
  rw [stripReturn]
  split
  · rename_i ended
    rcases List.eq_nil_or_concat' rest with rfl | ⟨front, last, rfl⟩
    · simp at ended
    · refine ⟨front, ?_, fun absent => ?_⟩
      · rw [← List.cons_append, ← List.append_assoc, List.dropLast_concat]
      · rw [← List.cons_append, ← List.append_assoc, List.getLast?_concat,
          Option.some.injEq] at ended
        rw [ended] at absent
        simp at absent
  · exact ⟨rest, rfl, fun _ => rfl⟩

def isFieldName (name : Text) : Bool :=
  ':' ∉ name && '\n' ∉ name && !name.isEmpty && name.head? ≠ some ' ' && name.head? ≠ some '\t'

theorem statusField_named {name : Text} (proper : isFieldName name = true) (rest : Text) :
    statusField (name ++ ':' :: rest) = some ((trim name).map Char.toLower, trim rest) := by
  simp only [isFieldName, Bool.and_eq_true, decide_eq_true_eq, Bool.not_eq_true',
    List.isEmpty_eq_false_iff] at proper
  obtain ⟨⟨⟨⟨colon, -⟩, nonempty⟩, space⟩, tab⟩ := proper
  obtain ⟨first, others, rfl⟩ := List.exists_cons_of_ne_nil nonempty
  rw [statusField, if_neg, splitOnce_append colon]
  · rfl
  · rintro (blank | blank)
    · exact space blank
    · exact tab blank

theorem reportLines_field {name more : Text} (proper : isFieldName name = true)
    (whole : '\n' ∉ more) (value : Text) :
    ∃ line kept, reportLines (name ++ ':' :: (more ++ value)) = line :: (reportLines value).tail ∧
      line ≠ [] ∧ statusField line = some ((trim name).map Char.toLower, trim kept) ∧
      ('\n' ∉ value → '\r' ∉ more ++ value → kept = more ++ value) := by
  have label : '\n' ∉ name ++ ':' :: more := by
    simp only [isFieldName, Bool.and_eq_true, decide_eq_true_eq] at proper
    simp [proper.1.1.1.2, whole]
  obtain ⟨first, lines, single⟩ := reportLines_label label value
  have shape : ∀ text, name ++ ':' :: more ++ text = name ++ ':' :: (more ++ text) := by simp
  rw [shape, shape] at lines
  obtain ⟨kept, line, same⟩ := stripReturn_colon name (more ++ first)
  refine ⟨name ++ ':' :: kept, kept, by rw [lines, line], by simp,
    statusField_named proper kept, fun unbroken plain => ?_⟩
  rw [same (by rwa [single unbroken]), single unbroken]

structure ReportField where
  name : Text
  label : Text
  value : Text
  proper : isFieldName name = true
  whole : '\n' ∉ label

namespace ReportField

def text (field : ReportField) : Text := field.name ++ ':' :: (field.label ++ field.value)

def tail (field : ReportField) : List Text := (reportLines field.value).tail

theorem lines (field : ReportField) : ∃ line, reportLines field.text = line :: field.tail ∧
    line ≠ [] := by
  obtain ⟨line, kept, lines, solid, -⟩ := reportLines_field field.proper field.whole field.value
  exact ⟨line, lines, solid⟩

end ReportField

def blockLines (fields : List ReportField) : List Text :=
  fields.flatMap fun field => reportLines field.text

structure ReportBlock where
  front : List ReportField
  last : ReportField
  single : '\n' ∉ last.value
  unreturned : '\r' ∉ last.text

namespace ReportBlock

def fields (block : ReportBlock) : List ReportField := block.front ++ [block.last]

def lines (block : ReportBlock) : List Text := blockLines block.fields

def Solid (block : ReportBlock) : Prop := ∀ field ∈ block.fields, ∀ line ∈ field.tail, line ≠ []

end ReportBlock

end Rusmes
