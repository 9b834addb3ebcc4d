import Rusmes.Storage.Filesystem

/-!
What the operations do to the files of one folder. File names are told apart by
the part before the flags; as long as these differ, setting flags renames every
file that carries one of the identifiers and loses none.
-/

namespace Rusmes

open WireText

def MessageFlags.system (flags : MessageFlags) : MessageFlags :=
  { flags with recent := false, custom := [] }

namespace MaildirFilename

theorem separator_start {before after : Text}
    (found : separator <+: before ++ separator ++ after) :
    before = [] ∨ separator <+: before := by
  match before with
  | [] => exact Or.inl rfl
  | [first] => simp [separator] at found
  | [first, second] => simp [separator] at found
  | first :: second :: third :: rest =>
      right
      simpa [separator] using found

theorem splitOnceAt_separator {base : Text} (plain : splitOnceAt separator base = none)
    (after : Text) : splitOnceAt separator (base ++ separator ++ after) = some (base, after) := by
  induction base with
  | nil => simp [splitOnceAt, separator]
  | cons character rest ih =>
      simp only [splitOnceAt] at plain
      split at plain
      · cases plain
      · rename_i absent
        have later := ih (by simpa using plain)
        have first : ¬separator <+: character :: (rest ++ separator ++ after) := by
          intro found
          have whole : separator <+: character :: rest ++ separator ++ after := by simpa using found
          rcases separator_start whole with empty | inside
          · cases empty
          · exact absent inside
        rw [List.cons_append, List.cons_append, splitOnceAt, if_neg first, later]
        rfl

theorem splitOnceAt_baseName (filename : Text) :
    splitOnceAt separator (baseName filename) = none := by
  rw [baseName]
  cases found : splitOnceAt separator filename with
  | none => simpa using found
  | some parts => exact splitOnceAt_before found

theorem encodeFlags_eq (flags : MessageFlags) :
    ∃ letters, encodeFlags flags = separator ++ letters ∧
      splitOnceAt separator letters = none ∧
      letters.contains 'D' = flags.draft ∧ letters.contains 'F' = flags.flagged ∧
      letters.contains 'R' = flags.answered ∧ letters.contains 'S' = flags.seen ∧
      letters.contains 'T' = flags.deleted := by
  refine ⟨_, rfl, ?_⟩
  obtain ⟨seen, answered, flagged, deleted, draft, recent, custom⟩ := flags
  cases seen <;> cases answered <;> cases flagged <;> cases deleted <;> cases draft <;>
    simp [splitOnceAt, separator]

@[simp] theorem baseName_withFlags (filename : Text) (flags : MessageFlags) :
    baseName (withFlags filename flags) = baseName filename := by
  obtain ⟨letters, encoded, -⟩ := encodeFlags_eq flags
  have split := splitOnceAt_separator (splitOnceAt_baseName filename) letters
  rw [baseName, withFlags, encoded, ← List.append_assoc, split]
  rfl

@[simp] theorem withFlags_withFlags (filename : Text) (first second : MessageFlags) :
    withFlags (withFlags filename first) second = withFlags filename second := by
  rw [withFlags, baseName_withFlags, withFlags]

theorem decodeFlags_withFlags (filename : Text) (flags : MessageFlags) :
    decodeFlags (withFlags filename flags) = flags.system := by
  obtain ⟨letters, encoded, plain, draft, flagged, answered, seen, deleted⟩ := encodeFlags_eq flags
  have split := splitOnceAt_separator (splitOnceAt_baseName filename) letters
  have part : flagPart (withFlags filename flags) = letters := by
    rw [flagPart, withFlags, encoded, ← List.append_assoc, split]
    simp [plain]
  simp only [decodeFlags, part, draft, flagged, answered, seen, deleted]
  rfl

theorem baseName_append {lead : Text} (plain : ':' ∉ lead) (rest : Text) :
    baseName (lead ++ rest) = lead ++ baseName rest := by
  induction lead with
  | nil => rfl
  | cons character lead ih =>
      rw [List.mem_cons, not_or] at plain
      have absent : ¬separator <+: character :: (lead ++ rest) := by
        intro found
        have first : ':' = character := by
          rw [separator] at found
          exact (List.cons_prefix_cons.mp found).1
        exact plain.1 first
      have later := ih plain.2
      simp only [baseName] at later
      rw [List.cons_append, baseName, splitOnceAt, if_neg absent]
      cases found : splitOnceAt separator (lead ++ rest) with
      | none =>
          rw [found] at later
          simp only [Option.map_none, Option.getD_none] at later ⊢
          rw [List.cons_append, later, baseName]
      | some parts =>
          rw [found] at later
          simp only [Option.map_some, Option.getD_some] at later ⊢
          rw [List.cons_append, later, baseName]

def Numbered (filename : Text) (counter : Nat) : Prop :=
  ∃ seconds micros pid rest, filename =
    decimal seconds ++ '.' :: 'M' :: (decimal micros ++ 'P' :: (decimal pid ++
      'Q' :: (decimal counter ++ '.' :: rest)))

theorem numbered_generate (hostname : Text) (pid counter : Nat) (now : Nat × Nat) :
    Numbered (generate hostname pid counter now) counter :=
  ⟨now.1, now.2, pid, hostname, by simp [generate]⟩

theorem Numbered.baseName {filename : Text} {counter : Nat} (numbered : Numbered filename counter) :
    Numbered (baseName filename) counter := by
  obtain ⟨seconds, micros, pid, rest, rfl⟩ := numbered
  refine ⟨seconds, micros, pid, MaildirFilename.baseName rest, ?_⟩
  have plain : ':' ∉ decimal seconds ++ '.' :: 'M' :: (decimal micros ++ 'P' :: (decimal pid ++
      'Q' :: (decimal counter ++ ['.']))) := by
    simp [not_mem_decimal]
  have split := baseName_append plain rest
  simpa using split

theorem Numbered.unique {filename : Text} {first second : Nat}
    (one : Numbered filename first) (other : Numbered filename second) : first = second := by
  obtain ⟨seconds, micros, pid, rest, rfl⟩ := one
  obtain ⟨seconds', micros', pid', rest', same⟩ := other
  have afterSeconds := (decimal_append_cons (by decide) (by decide) same).2
  rw [List.cons.injEq] at afterSeconds
  have afterMicros := (decimal_append_cons (by decide) (by decide) afterSeconds.2).2
  have afterPid := (decimal_append_cons (by decide) (by decide) afterMicros).2
  exact (decimal_append_cons (by decide) (by decide) afterPid).1

theorem Numbered.withFlags {filename : Text} {counter : Nat} (numbered : Numbered filename counter)
    (flags : MessageFlags) : Numbered (withFlags filename flags) counter := by
  obtain ⟨seconds, micros, pid, rest, base⟩ := numbered.baseName
  refine ⟨seconds, micros, pid, rest ++ encodeFlags flags, ?_⟩
  rw [MaildirFilename.withFlags, base]
  simp

end MaildirFilename

def MailFile.base (file : MailFile) : Text := MaildirFilename.baseName file.name

def Folder.WellNamed (folder : Folder) : Prop := (folder.files.map MailFile.base).Nodup

/-- The files are numbered by distinct deliveries, none later than the bound. -/
structure Folder.Numbered (bound : Nat) (folder : Folder) : Prop where
  named : ∀ file ∈ folder.files, MaildirFilename.Numbered file.name file.delivery.counter
  bounded : ∀ file ∈ folder.files, file.delivery.counter ≤ bound
  distinct : (folder.files.map (·.delivery.counter)).Nodup

theorem Folder.Numbered.mono {first second : Nat} {folder : Folder}
    (numbered : folder.Numbered first) (within : first ≤ second) : folder.Numbered second :=
  ⟨numbered.named, fun file member => Nat.le_trans (numbered.bounded file member) within,
    numbered.distinct⟩

theorem Folder.Numbered.wellNamed {bound : Nat} {folder : Folder}
    (numbered : folder.Numbered bound) : folder.WellNamed := by
  have counters := List.pairwise_map.mp numbered.distinct
  apply List.pairwise_map.mpr
  refine counters.imp_of_mem ?_
  intro first second firstMember secondMember different sameBase
  apply different
  have one := (numbered.named first firstMember).baseName
  have other := (numbered.named second secondMember).baseName
  rw [MailFile.base, MailFile.base] at sameBase
  rw [sameBase] at one
  exact one.unique other

theorem Folder.WellNamed.new {folder : Folder} (named : folder.WellNamed) :
    (folder.new.map MailFile.base).Nodup := by
  rw [Folder.WellNamed, Folder.files, List.map_append] at named
  exact named.of_append_left

theorem Folder.WellNamed.cur {folder : Folder} (named : folder.WellNamed) :
    (folder.cur.map MailFile.base).Nodup := by
  rw [Folder.WellNamed, Folder.files, List.map_append] at named
  exact named.of_append_right

theorem Folder.WellNamed.of_perm {folder other : Folder} (named : folder.WellNamed)
    (same : (other.files.map MailFile.base).Perm (folder.files.map MailFile.base)) :
    other.WellNamed := same.nodup_iff.mpr named

namespace Filesystem

variable {host : Host} {ids : List MessageId} {flags : MessageFlags}

def flaggedFile (host : Host) (ids : List MessageId) (flags : MessageFlags) (file : MailFile) :
    MailFile :=
  if carriesId host ids file then { file with name := MaildirFilename.withFlags file.name flags }
  else file

@[simp] theorem flaggedFile_base (file : MailFile) :
    (flaggedFile host ids flags file).base = file.base := by
  rw [flaggedFile]
  split
  · exact MaildirFilename.baseName_withFlags file.name flags
  · rfl

@[simp] theorem flaggedFile_data (file : MailFile) :
    (flaggedFile host ids flags file).data = file.data := by
  rw [flaggedFile]
  split <;> rfl

@[simp] theorem flaggedFile_delivery (file : MailFile) :
    (flaggedFile host ids flags file).delivery = file.delivery := by
  rw [flaggedFile]
  split <;> rfl

theorem carriesId_congr {first second : MailFile} (same : first.data = second.data) :
    carriesId host ids first = carriesId host ids second := by
  rw [carriesId, carriesId, storedId, storedId, same]

theorem flaggedFile_flaggedFile (file : MailFile) :
    flaggedFile host ids flags (flaggedFile host ids flags file) =
      flaggedFile host ids flags file := by
  have carried : carriesId host ids (flaggedFile host ids flags file) = carriesId host ids file :=
    carriesId_congr (flaggedFile_data file)
  by_cases carries : carriesId host ids file = true
  · rw [flaggedFile, carried, if_pos carries]
    simp [flaggedFile, carries]
  · rw [flaggedFile, carried, if_neg carries]

theorem placeFile_of_new {file : MailFile} {directory : List MailFile}
    (absent : ∀ other ∈ directory, other.name ≠ file.name) :
    placeFile file directory = directory ++ [file] := by
  rw [placeFile, List.filter_eq_self.mpr]
  intro other member
  simpa using absent other member

theorem find_by_name {directory : List MailFile} {file : MailFile} (member : file ∈ directory)
    (distinct : (directory.map MailFile.base).Nodup) :
    directory.find? (·.name = file.name) = some file := by
  induction directory with
  | nil => cases member
  | cons first rest ih =>
      rw [List.map_cons, List.nodup_cons] at distinct
      rw [List.find?_cons]
      rcases List.mem_cons.mp member with rfl | later
      · simp
      · have different : first.name ≠ file.name := by
          intro same
          apply distinct.1
          rw [MailFile.base, same]
          exact List.mem_map_of_mem later
        simp [different, ih later distinct.2]

theorem filter_by_name {directory : List MailFile} {file : MailFile}
    (distinct : (directory.map MailFile.base).Nodup) (member : file ∈ directory) :
    directory.filter (·.name ≠ file.name) = directory.filter (· ≠ file) := by
  apply List.filter_congr
  intro other inside
  by_cases same : other = file
  · simp [same]
  · have different : other.name ≠ file.name := by
      intro sameName
      have bases : other.base = file.base := by rw [MailFile.base, sameName, MailFile.base]
      exact same (List.inj_on_of_nodup_map distinct inside member bases)
    simp [same, different]

variable (host ids flags)

theorem reflagFile_new {folder : Folder} {file : MailFile} (named : folder.WellNamed)
    (member : file ∈ folder.new) :
    reflagFile host ids flags false folder file.name =
      if carriesId host ids file then
        { folder with
          new := folder.new.filter (· ≠ file)
          cur := folder.cur ++ [flaggedFile host ids flags file] }
      else folder := by
  simp only [reflagFile, Bool.false_eq_true, if_false, find_by_name member named.new, false_and,
    or_false]
  by_cases carries : carriesId host ids file = true
  · have absent : ∀ other ∈ folder.cur,
        other.name ≠ (flaggedFile host ids flags file).name := by
      intro other inside same
      have bases : other.base = file.base := by
        have renamed : (flaggedFile host ids flags file).base = file.base := flaggedFile_base file
        rw [← renamed, MailFile.base, same, MailFile.base]
      rw [Folder.WellNamed, Folder.files, List.map_append, List.nodup_append] at named
      exact named.2.2 _ (List.mem_map_of_mem member) _ (List.mem_map_of_mem inside) bases.symm
    have placed := placeFile_of_new absent
    have removed := filter_by_name named.new member
    simp only [flaggedFile, carries, if_true] at placed
    simp only [carries, not_true, if_false, if_true, removed, placed, flaggedFile]
  · simp [carries]

theorem perm_remove {directory : List MailFile} {file : MailFile} (member : file ∈ directory)
    (distinct : (directory.map MailFile.base).Nodup) :
    directory.Perm (file :: directory.filter (· ≠ file)) := by
  have erased := (distinct.of_map).erase_eq_filter file
  have same : directory.filter (· ≠ file) = directory.erase file := by
    rw [erased]
    apply List.filter_congr
    intro other _
    simp [bne, BEq.beq]
  rw [same]
  exact List.perm_cons_erase member

theorem reflagFile_fold_new {visited : List MailFile} {folder : Folder}
    (named : folder.WellNamed) (inside : ∀ file ∈ visited, file ∈ folder.new)
    (once : visited.Nodup) :
    (visited.map (·.name)).foldl (reflagFile host ids flags false) folder =
      { folder with
        new := folder.new.filter fun file => !(visited.contains file && carriesId host ids file)
        cur := folder.cur ++
          (visited.filter (carriesId host ids)).map (flaggedFile host ids flags) } := by
  induction visited generalizing folder with
  | nil => simp
  | cons file rest ih =>
      rw [List.nodup_cons] at once
      have member := inside file List.mem_cons_self
      rw [List.map_cons, List.foldl_cons, reflagFile_new host ids flags named member]
      by_cases carries : carriesId host ids file = true
      · rw [if_pos carries]
        have laterNamed : ({ folder with
            new := folder.new.filter (· ≠ file)
            cur := folder.cur ++ [flaggedFile host ids flags file] } : Folder).WellNamed := by
          apply named.of_perm
          have moved := (perm_remove member named.new).map MailFile.base
          simp only [Folder.files, List.map_append, List.map_cons, List.map_nil, flaggedFile_base]
          simp only [List.map_cons] at moved
          rw [← List.append_assoc]
          exact List.perm_append_singleton _ _ |>.trans (moved.symm.append_right _)
        rw [ih laterNamed ?_ once.2]
        · simp only [List.filter_filter, List.filter_cons_of_pos carries, List.map_cons,
            List.append_assoc, List.singleton_append, Folder.mk.injEq, true_and, and_true]
          apply List.filter_congr
          intro other _
          by_cases same : other = file
          · simp [same, carries]
          · simp [same]
        · intro other later
          have different : other ≠ file := by
            rintro rfl
            exact once.1 later
          simp [different, inside other (List.mem_cons_of_mem file later)]
      · rw [if_neg carries, ih named (fun other later =>
          inside other (List.mem_cons_of_mem file later)) once.2,
          List.filter_cons_of_neg carries]
        simp only [Folder.mk.injEq, true_and, and_true]
        apply List.filter_congr
        intro other _
        by_cases same : other = file
        · simp [same, carries]
        · simp [same]

theorem reflagFile_cur {folder : Folder} {file : MailFile} (named : folder.WellNamed)
    (member : file ∈ folder.cur) :
    ∃ cur, reflagFile host ids flags true folder file.name = { folder with cur } ∧
      cur.Perm (flaggedFile host ids flags file :: folder.cur.filter (· ≠ file)) := by
  have distinct := named.cur
  simp only [reflagFile, if_true, find_by_name member distinct, true_and]
  by_cases carries : carriesId host ids file = true
  · by_cases unchanged : MaildirFilename.withFlags file.name flags = file.name
    · refine ⟨folder.cur, by simp [unchanged], ?_⟩
      have same : flaggedFile host ids flags file = file := by
        rw [flaggedFile, if_pos carries, unchanged]
      rw [same]
      exact perm_remove member distinct
    · have absent : ∀ other ∈ folder.cur.filter (· ≠ file),
          other.name ≠ (flaggedFile host ids flags file).name := by
        intro other inside same
        rw [List.mem_filter] at inside
        have renamed : (flaggedFile host ids flags file).base = file.base := flaggedFile_base file
        have bases : other.base = file.base := by
          rw [← renamed, MailFile.base, same, MailFile.base]
        have equal := List.inj_on_of_nodup_map distinct inside.1 member bases
        simp [equal] at inside
      have placed := placeFile_of_new absent
      have removed := filter_by_name distinct member
      simp only [flaggedFile, carries, if_true] at placed
      refine ⟨folder.cur.filter (· ≠ file) ++ [flaggedFile host ids flags file], ?_,
        List.perm_append_singleton _ _⟩
      simp only [carries, unchanged, not_true, or_self, if_false, removed, placed, flaggedFile,
        if_true]
  · refine ⟨folder.cur, by simp [carries], ?_⟩
    rw [flaggedFile, if_neg carries]
    exact perm_remove member distinct

theorem reflagFile_fold_cur {visited : List MailFile} {folder : Folder}
    (named : folder.WellNamed) (inside : ∀ file ∈ visited, file ∈ folder.cur)
    (once : visited.Nodup) :
    ∃ cur, (visited.map (·.name)).foldl (reflagFile host ids flags true) folder =
        { folder with cur } ∧
      cur.Perm (folder.cur.filter (fun file => !visited.contains file) ++
        visited.map (flaggedFile host ids flags)) := by
  induction visited generalizing folder with
  | nil => exact ⟨folder.cur, rfl, by simp⟩
  | cons file rest ih =>
      rw [List.nodup_cons] at once
      have member := inside file List.mem_cons_self
      obtain ⟨between, reflagged, moved⟩ := reflagFile_cur host ids flags named member
      have laterNamed : ({ folder with cur := between } : Folder).WellNamed := by
        apply named.of_perm
        have bases := (moved.map MailFile.base).trans
          (by rw [List.map_cons, flaggedFile_base, ← List.map_cons] :
            ((flaggedFile host ids flags file :: folder.cur.filter (· ≠ file)).map
              MailFile.base).Perm ((file :: folder.cur.filter (· ≠ file)).map MailFile.base))
        simp only [Folder.files, List.map_append]
        exact (bases.trans ((perm_remove member named.cur).map MailFile.base).symm).append_left _
      have laterInside : ∀ other ∈ rest, other ∈ between := by
        intro other later
        have different : other ≠ file := by
          rintro rfl
          exact once.1 later
        rw [moved.mem_iff]
        simp [different, inside other (List.mem_cons_of_mem file later)]
      obtain ⟨cur, folded, final⟩ := ih laterNamed laterInside once.2
      refine ⟨cur, by rw [List.map_cons, List.foldl_cons, reflagged, folded], ?_⟩
      have fresh : flaggedFile host ids flags file ∉ rest := by
        intro later
        have held := inside _ (List.mem_cons_of_mem file later)
        have equal := List.inj_on_of_nodup_map named.cur held member (flaggedFile_base file)
        exact once.1 (equal ▸ later)
      have kept := moved.filter fun other => !rest.contains other
      rw [List.filter_cons_of_pos (by simpa using fresh), List.filter_filter] at kept
      have others : folder.cur.filter (fun other => !rest.contains other && decide (other ≠ file)) =
          folder.cur.filter fun other => !(file :: rest).contains other := by
        apply List.filter_congr
        intro other _
        by_cases same : other = file
        · simp [same]
        · simp [same]
      rw [others] at kept
      rw [List.map_cons]
      exact (final.trans (kept.append_right _)).trans List.perm_middle.symm

theorem flagFolder_spec (moment : Nat) {folder : Folder} (named : folder.WellNamed) :
    ∃ cur, flagFolder host moment ids flags folder =
        { folder with new := folder.new.filter (fun file => !carriesId host ids file), cur } ∧
      cur.Perm (folder.cur.map (flaggedFile host ids flags) ++
        (folder.new.filter (carriesId host ids)).map (flaggedFile host ids flags)) := by
  have visitNew := host.readDir_perm moment folder.new
  have firstFold := reflagFile_fold_new host ids flags named
    (fun file member => visitNew.mem_iff.mp member) (visitNew.nodup_iff.mpr named.new.of_map)
  have allNew : folder.new.filter (fun file =>
      !((host.readDir moment folder.new).contains file && carriesId host ids file)) =
      folder.new.filter fun file => !carriesId host ids file := by
    apply List.filter_congr
    intro file member
    simp [visitNew.mem_iff.mpr member]
  rw [allNew] at firstFold
  have moved : (((host.readDir moment folder.new).filter (carriesId host ids)).map
      (flaggedFile host ids flags)).Perm
      ((folder.new.filter (carriesId host ids)).map (flaggedFile host ids flags)) :=
    (visitNew.filter _).map _
  generalize ((host.readDir moment folder.new).filter (carriesId host ids)).map
    (flaggedFile host ids flags) = arrived at firstFold moved
  have firstNamed : ({ folder with
      new := folder.new.filter fun file => !carriesId host ids file
      cur := folder.cur ++ arrived } : Folder).WellNamed := by
    apply named.of_perm
    have bases : (arrived.map MailFile.base).Perm
        ((folder.new.filter (carriesId host ids)).map MailFile.base) := by
      have renamed := moved.map MailFile.base
      rw [List.map_map] at renamed
      exact renamed.trans (List.Perm.of_eq (List.map_congr_left fun file _ => flaggedFile_base file))
    have parts := (List.filter_append_perm (carriesId host ids) folder.new).map MailFile.base
    simp only [Folder.files, List.map_append] at parts ⊢
    refine (List.Perm.append_left _ List.perm_append_comm).trans ?_
    rw [← List.append_assoc]
    exact ((bases.append_left _).trans (List.perm_append_comm.trans parts)).append_right _
  have visitCur := host.readDir_perm (moment + 1) (folder.cur ++ arrived)
  obtain ⟨cur, secondFold, final⟩ := reflagFile_fold_cur host ids flags firstNamed
    (fun file member => visitCur.mem_iff.mp member) (visitCur.nodup_iff.mpr firstNamed.cur.of_map)
  refine ⟨cur, ?_, ?_⟩
  · simp only [flagFolder, firstFold, secondFold]
  · have nothingLeft : (folder.cur ++ arrived).filter (fun file =>
        !(host.readDir (moment + 1) (folder.cur ++ arrived)).contains file) = [] := by
      rw [List.filter_eq_nil_iff]
      intro file member
      simp [visitCur.mem_iff.mpr member]
    rw [nothingLeft, List.nil_append] at final
    have renamed := final.trans (visitCur.map (flaggedFile host ids flags))
    rw [List.map_append] at renamed
    refine renamed.trans (List.Perm.append_left _ ?_)
    refine (moved.map (flaggedFile host ids flags)).trans ?_
    rw [List.map_map]
    apply List.Perm.of_eq
    apply List.map_congr_left
    intro file _
    exact flaggedFile_flaggedFile file

theorem flagFolder_files (moment : Nat) {folder : Folder} (named : folder.WellNamed) :
    (flagFolder host moment ids flags folder).files.Perm
      (folder.files.map (flaggedFile host ids flags)) := by
  obtain ⟨cur, flagged, moved⟩ := flagFolder_spec host ids flags moment named
  have unchanged : folder.new.filter (fun file => !carriesId host ids file) =
      (folder.new.filter fun file => !carriesId host ids file).map
        (flaggedFile host ids flags) := by
    rw [List.map_congr_left (g := id), List.map_id]
    intro file member
    have carries := (List.mem_filter.mp member).2
    rw [Bool.not_eq_true'] at carries
    rw [flaggedFile, carries]
    rfl
  have parts := (List.filter_append_perm (carriesId host ids) folder.new).map
    (flaggedFile host ids flags)
  rw [flagged, Folder.files, Folder.files, List.map_append, unchanged]
  refine (moved.append_left _).trans ?_
  refine (List.Perm.append_left _ List.perm_append_comm).trans ?_
  rw [← List.append_assoc, ← List.map_append]
  exact ((List.perm_append_comm.map _).trans parts).append_right _

theorem flagFolder_mailbox (moment : Nat) {folder : Folder} (named : folder.WellNamed) :
    (flagFolder host moment ids flags folder).mailbox = folder.mailbox := by
  obtain ⟨cur, flagged, -⟩ := flagFolder_spec host ids flags moment named
  rw [flagged]

theorem flagFolder_wellNamed (moment : Nat) {folder : Folder} (named : folder.WellNamed) :
    (flagFolder host moment ids flags folder).WellNamed := by
  apply named.of_perm
  refine ((flagFolder_files host ids flags moment named).map MailFile.base).trans ?_
  rw [List.map_map]
  exact List.Perm.of_eq (List.map_congr_left fun file _ => flaggedFile_base file)

theorem flagFolder_numbered (moment : Nat) {bound : Nat} {folder : Folder}
    (numbered : folder.Numbered bound) :
    (flagFolder host moment ids flags folder).Numbered bound := by
  have moved := flagFolder_files host ids flags moment numbered.wellNamed
  have origin : ∀ file ∈ (flagFolder host moment ids flags folder).files,
      ∃ source ∈ folder.files, flaggedFile host ids flags source = file := by
    intro file member
    exact List.mem_map.mp (moved.mem_iff.mp member)
  refine ⟨?_, ?_, ?_⟩
  · intro file member
    obtain ⟨source, inside, rfl⟩ := origin file member
    have sourceNamed := numbered.named source inside
    rw [flaggedFile_delivery, flaggedFile]
    split
    · exact sourceNamed.withFlags flags
    · exact sourceNamed
  · intro file member
    obtain ⟨source, inside, rfl⟩ := origin file member
    rw [flaggedFile_delivery]
    exact numbered.bounded source inside
  · have counters := moved.map (·.delivery.counter)
    rw [List.map_map] at counters
    rw [counters.nodup_iff]
    simpa [Function.comp_def] using numbered.distinct

theorem expungeFolder_files (folder : Folder) :
    (expungeFolder host ids folder).files =
      folder.files.filter fun file => !carriesId host ids file := by
  simp [expungeFolder, Folder.files]

theorem expungeFolder_numbered {bound : Nat} {folder : Folder} (numbered : folder.Numbered bound) :
    (expungeFolder host ids folder).Numbered bound := by
  have kept : ∀ file ∈ (expungeFolder host ids folder).files, file ∈ folder.files := by
    intro file member
    rw [expungeFolder_files] at member
    exact List.mem_of_mem_filter member
  refine ⟨fun file member => numbered.named file (kept file member),
    fun file member => numbered.bounded file (kept file member), ?_⟩
  rw [expungeFolder_files]
  exact numbered.distinct.sublist (List.filter_sublist.map _)

theorem place_numbered {bound : Nat} {folder : Folder} {file : MailFile}
    (numbered : folder.Numbered bound) (within : file.delivery.counter ≤ bound)
    (named : MaildirFilename.Numbered file.name file.delivery.counter)
    (apart : ∀ other ∈ folder.files, other.delivery.counter ≠ file.delivery.counter) :
    placeFile file folder.new = folder.new ++ [file] ∧
      ({ folder with new := placeFile file folder.new } : Folder).Numbered bound := by
  have placed : placeFile file folder.new = folder.new ++ [file] := by
    apply placeFile_of_new
    intro other member same
    have inside : other ∈ folder.files := List.mem_append_left _ member
    have otherNamed := numbered.named other inside
    rw [same] at otherNamed
    exact apart other inside (otherNamed.unique named)
  refine ⟨placed, ?_⟩
  rw [placed]
  have perm : ({ folder with new := folder.new ++ [file] } : Folder).files.Perm
      (file :: folder.files) := by
    simp only [Folder.files, List.append_assoc, List.singleton_append]
    exact List.perm_middle
  refine ⟨?_, ?_, ?_⟩
  · intro other member
    rcases List.mem_cons.mp (perm.mem_iff.mp member) with rfl | inside
    · exact named
    · exact numbered.named other inside
  · intro other member
    rcases List.mem_cons.mp (perm.mem_iff.mp member) with rfl | inside
    · exact within
    · exact numbered.bounded other inside
  · rw [(perm.map _).nodup_iff, List.map_cons, List.nodup_cons]
    refine ⟨?_, numbered.distinct⟩
    intro member
    obtain ⟨other, inside, same⟩ := List.mem_map.mp member
    exact apart other inside same

theorem placeFile_numbered {bound counter : Nat} {folder : Folder} {file : MailFile}
    (numbered : folder.Numbered bound) (later : bound < counter)
    (delivered : file.delivery.counter = counter)
    (named : MaildirFilename.Numbered file.name counter) :
    placeFile file folder.new = folder.new ++ [file] ∧
      ({ folder with new := placeFile file folder.new } : Folder).Numbered counter := by
  subst delivered
  refine place_numbered (numbered.mono (Nat.le_of_lt later)) (Nat.le_refl _) named
    fun other member => ?_
  exact Nat.ne_of_lt (Nat.lt_of_le_of_lt (numbered.bounded other member) later)

end Filesystem

end Rusmes
