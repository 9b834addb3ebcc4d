import Rusmes.Library.WireText

/-!
The BDAT command and the chunk accumulator of `bdat.rs`. The state carries its own
invariant: the size is that of the octets held, and a message within the limit stays
within it.
-/

namespace Rusmes

open WireText

inductive BdatError
  | missingChunkSize
  | invalidChunkSize (text : Text)
  | zeroChunkSize
  | invalidSyntax
  | messageTooLarge (current max : Nat)
  | alreadyComplete
  | incomplete
  | chunkSizeMismatch (expected actual : Nat)
  deriving DecidableEq, Repr

structure BdatCommand where
  chunkSize : Nat
  last : Bool
  deriving DecidableEq, Repr

def BdatCommand.parse (args : Text) : Except BdatError BdatCommand :=
  let parts := splitWhitespace args
  match parts.head? with
  | none => .error .missingChunkSize
  | some size =>
      match parseUsize size with
      | none => .error (.invalidChunkSize size)
      | some chunkSize =>
          if chunkSize = 0 then .error .zeroChunkSize
          else
            let last := parts[1]?.any fun part => eqIgnoreAsciiCase part "LAST".toList
            if parts.length > 2 ∨ (parts.length = 2 ∧ ¬last) then .error .invalidSyntax
            else .ok { chunkSize, last }

def BdatCommand.display (command : BdatCommand) : Text :=
  if command.last then "BDAT ".toList ++ decimal command.chunkSize ++ " LAST".toList
  else "BDAT ".toList ++ decimal command.chunkSize

structure BdatState where
  chunks : Octets
  totalSize : Nat
  maxSize : Nat
  complete : Bool
  sized : totalSize = chunks.length
  bounded : totalSize ≤ maxSize
  deriving DecidableEq, Repr

def BdatState.new (maxSize : Nat) : BdatState where
  chunks := []
  totalSize := 0
  maxSize := maxSize
  complete := false
  sized := rfl
  bounded := Nat.zero_le maxSize

def BdatState.addChunk (state : BdatState) (data : Octets) (last : Bool) :
    Except BdatError BdatState :=
  if state.complete then .error .alreadyComplete
  else if large : state.totalSize + data.length > state.maxSize then
    .error (.messageTooLarge (state.totalSize + data.length) state.maxSize)
  else
    .ok {
      chunks := state.chunks ++ data
      totalSize := state.totalSize + data.length
      maxSize := state.maxSize
      complete := last
      sized := by rw [List.length_append, state.sized]
      bounded := by omega
    }

def BdatState.addChunkWithValidation (state : BdatState) (data : Octets) (expectedSize : Nat)
    (last : Bool) : Except BdatError BdatState :=
  if data.length ≠ expectedSize then
    .error (.chunkSizeMismatch expectedSize data.length)
  else state.addChunk data last

def BdatState.intoMessage (state : BdatState) : Except BdatError Octets :=
  if ¬state.complete then .error .incomplete else .ok state.chunks

theorem BdatState.addChunk_cases (state : BdatState) (data : Octets) (last : Bool) :
    ((∃ error, state.addChunk data last = .error error) ∧
      ¬(state.complete = false ∧ state.totalSize + data.length ≤ state.maxSize)) ∨
    ∃ after, state.addChunk data last = .ok after ∧ state.complete = false ∧
      state.totalSize + data.length ≤ state.maxSize ∧ after.chunks = state.chunks ++ data ∧
        after.maxSize = state.maxSize ∧ after.complete = last := by
  simp only [addChunk]
  split
  · rename_i complete
    exact .inl ⟨⟨_, rfl⟩, fun accepting => by simp [complete] at accepting⟩
  · rename_i incomplete
    split
    · rename_i large
      exact .inl ⟨⟨_, rfl⟩, fun accepting => Nat.not_le.mpr large accepting.2⟩
    · rename_i fits
      exact .inr ⟨_, rfl, Bool.eq_false_iff.mpr incomplete, Nat.le_of_not_lt fits, rfl, rfl, rfl⟩

/-- A transfer gives the message exactly when all of it fits, however it is cut into chunks. -/
theorem BdatState.transfer_iff (chunks : List Octets) (final : Octets) (state : BdatState)
    (message : Octets) :
    (chunks.foldlM (fun state data => state.addChunk data false) state >>= fun held =>
        held.addChunk final true >>= intoMessage) = .ok message ↔
      state.complete = false ∧
        state.totalSize + (chunks.flatten ++ final).length ≤ state.maxSize ∧
        message = state.chunks ++ (chunks.flatten ++ final) := by
  induction chunks generalizing state with
  | nil =>
      rw [List.foldlM_nil, pure_bind, List.flatten_nil, List.nil_append]
      rcases state.addChunk_cases final true with
        ⟨⟨error, ran⟩, refused⟩ | ⟨whole, ran, accepting, fits, held, _, complete⟩
      · rw [ran]
        exact iff_of_false (fun given => by cases given) fun wanted => refused ⟨wanted.1, wanted.2.1⟩
      · have given : (Except.ok whole >>= intoMessage) = .ok (state.chunks ++ final) := by
          change whole.intoMessage = _
          rw [intoMessage, complete, held, if_neg (by simp)]
        rw [ran, given, Except.ok.injEq]
        exact ⟨fun same => ⟨accepting, fits, same.symm⟩, fun same => same.2.2.symm⟩
  | cons data rest ih =>
      rw [List.foldlM_cons, bind_assoc, List.flatten_cons, List.append_assoc, List.length_append]
      rcases state.addChunk_cases data false with
        ⟨⟨error, ran⟩, refused⟩ | ⟨next, ran, accepting, fits, held, limit, incomplete⟩
      · rw [ran]
        refine iff_of_false (fun given => by cases given) ?_
        rintro ⟨accepting, fits, _⟩
        exact refused ⟨accepting, by omega⟩
      · have sizes := next.sized
        rw [held, List.length_append, ← state.sized] at sizes
        have later := ih next
        rw [incomplete, held, limit, sizes, List.append_assoc, Nat.add_assoc] at later
        rw [ran, accepting]
        exact later

end Rusmes
