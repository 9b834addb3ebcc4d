import Rusmes.Library.LineEnds

/-!
Markers in a text of lines, and lines gathered into groups by the empty ones between them.
-/

namespace WireText

section Infix

variable {α : Type} {marker : List α} {separator : α}

theorem infix_append_cons (absent : separator ∉ marker) (nonempty : marker ≠ [])
    (first rest : List α) :
    marker <:+: first ++ separator :: rest ↔ marker <:+: first ∨ marker <:+: rest := by
  constructor
  · rintro ⟨before, after, whole⟩
    rw [List.append_assoc, List.append_eq_append_iff] at whole
    rcases whole with ⟨between, rfl, later⟩ | ⟨between, rfl, later⟩
    · rw [List.append_eq_append_iff] at later
      rcases later with ⟨more, rfl, -⟩ | ⟨more, rfl, more_eq⟩
      · exact Or.inl ⟨before, more, by simp⟩
      · cases more with
        | nil => exact Or.inl ⟨before, [], by simp⟩
        | cons next more =>
            rw [List.cons_append, List.cons.injEq] at more_eq
            exact absurd (by simp [more_eq.1]) absent
    · cases between with
      | nil =>
          rw [List.nil_append] at later
          cases marker with
          | nil => exact absurd rfl nonempty
          | cons next marker =>
              rw [List.cons_append, List.cons.injEq] at later
              exact absurd (by simp [later.1]) absent
      | cons next between =>
          rw [List.cons_append, List.cons.injEq] at later
          exact Or.inr ⟨between, after, by rw [later.2]; simp⟩
  · rintro (inside | inside)
    · exact inside.trans (List.prefix_append _ _).isInfix
    · exact inside.trans ((List.suffix_cons _ _).trans (List.suffix_append _ _)).isInfix

theorem apart_of_ended {text : List α} (absent : separator ∉ marker) (nonempty : marker ≠ [])
    (ended : text.getLast? = some separator) (free : ¬marker <:+: text) : Apart marker text := by
  obtain ⟨front, rfl⟩ := List.getLast?_eq_some_iff.mp ended
  rw [Apart, List.append_assoc, List.singleton_append,
    List.dropLast_append_of_ne_nil (List.cons_ne_nil _ _), List.dropLast_cons_of_ne_nil nonempty,
    infix_append_cons absent nonempty]
  rintro (inside | inside)
  · exact free (inside.trans (List.prefix_append _ _).isInfix)
  · have short := inside.length_le
    have positive := List.length_pos_iff.mpr nonempty
    rw [List.length_dropLast] at short
    omega

end Infix

section Labels

/-- A marker of the two characters and more may begin in the text or at its end. -/
def opens (first second : Char) : Text → Bool
  | [] => false
  | [character] => character = first
  | character :: next :: rest =>
      (character = first && next = second) || opens first second (next :: rest)

variable {first second : Char} {marker : Text}

end Labels

section Encoded

theorem infix_behind {marker part : Octets} {octet : UInt8} (foreign : octet ∉ part)
    (rest : Octets) : octet :: marker <:+: part ++ rest → octet :: marker <:+: rest := by
  induction part with
  | nil => exact id
  | cons first part ih =>
      rw [List.mem_cons, not_or] at foreign
      rw [List.cons_append, List.infix_cons_iff, List.cons_prefix_cons]
      rintro (⟨same, -⟩ | later)
      · exact absurd same foreign.1
      · exact ih foreign.2 later

theorem prefix_of_encoded {marker text : Text} (ascii : ∀ character ∈ marker, character.toNat < 128)
    (starts : encodeUtf8 marker <+: encodeUtf8 text) : marker <+: text := by
  induction marker generalizing text with
  | nil => exact List.nil_prefix
  | cons character marker ih =>
      obtain ⟨rest, whole⟩ := starts
      rw [encodeUtf8_cons_ascii (ascii character List.mem_cons_self), List.cons_append] at whole
      obtain ⟨later, rfl, encoded⟩ :=
        encodeUtf8_eq_cons_ascii (ascii character List.mem_cons_self) whole.symm
      refine List.cons_prefix_cons.mpr ⟨rfl, ih (fun other member =>
        ascii other (List.mem_cons_of_mem _ member)) ⟨rest, encoded.symm⟩⟩

theorem infix_of_encoded {marker text : Text} (ascii : ∀ character ∈ marker, character.toNat < 128)
    (inside : encodeUtf8 marker <:+: encodeUtf8 text) : marker <:+: text := by
  cases marker with
  | nil => exact List.nil_infix
  | cons first marker =>
      have low := ascii first List.mem_cons_self
      induction text with
      | nil =>
          rw [encodeUtf8_cons_ascii low] at inside
          cases List.infix_nil.mp inside
      | cons character text ih =>
          by_cases here : first :: marker <+: character :: text
          · exact here.isInfix
          have later : encodeUtf8 (first :: marker) <:+: encodeUtf8 text := by
            rw [encodeUtf8_cons_ascii low] at inside ⊢
            by_cases plain : character.toNat < 128
            · rw [encodeUtf8_cons_ascii plain, List.infix_cons_iff] at inside
              refine inside.resolve_left fun starts => here (prefix_of_encoded ascii ?_)
              rwa [encodeUtf8_cons_ascii low, encodeUtf8_cons_ascii plain]
            · rw [encodeUtf8_cons] at inside
              refine infix_behind (fun member => ?_) _ inside
              have high := utf8EncodeChar_high (Nat.le_of_not_lt plain) member
              rw [UInt8.toNat_ofNat'] at high
              omega
          exact (ih later).trans (List.suffix_cons _ _).isInfix

end Encoded

section Groups

variable {α : Type}

end Groups

end WireText
