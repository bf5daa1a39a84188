/-
Module: Unshield.Proofs.VolumeSearch
Purpose: The search of an old cabinet for the volume in which a file starts: it comes to the first volume
  that cannot be opened or that reaches to the file, and remembers it.
Trusted boundary: none
Main exports: readsInStep_unlogged, readerOpenVolume_requests, CanOpen, EndsSearch, Searched,
  readerCreate_searches, volume_search_selects_start
-/
import Unshield.Core.LoggedEnvironment
import Unshield.Proofs.FieldReads
import Unshield.Proofs.ReaderLockstep
import Unshield.Proofs.SaveSteps
import Unshield.Proofs.VolumeFormat
import Mathlib.Data.Nat.Find

namespace Unshield

open Procedure Procedure.Proc

/-! ### The list of requests -/

section

variable {σ H : Type} (env : Environment σ H) (header : Header)

theorem fopenVolume_eq {volume : Int} {s : Session σ H} {file : Option H} {io : σ}
    (opened : env.openForReading volume s.io = (file, io)) :
    fopenVolume env volume s =
      (if file.isSome then .ret () else .fail, { s with reader.volumeFile := file, io := io }) := by
  rw [fopenVolume]
  simp only [opened]
  cases file <;> rfl

theorem freadVolume_eq {count : Nat} {s : Session σ H} {file after : H} {data : Bytes} {io : σ}
    (opened : s.reader.volumeFile = some file)
    (read : env.callbacks.fread file count s.io = (data, after, io)) :
    freadVolume env count s =
      (if data.length = count then .ret data else .fail,
        { s with reader.volumeFile := some after, io := io }) := by
  rw [freadVolume, opened]
  simp only [read]
  split <;> rfl

/-- The list does not show in what the reader does. -/
theorem readsInStep_unlogged :
    ReadsInStep (fun _ => False) (fun (s : Session (Logged σ) H) s' => s' = s.unlogged) env.logged env where
  fclose := by
    apply Mirrors.of_run
    rintro ⟨reader, fd, output, io⟩
    rw [fcloseVolume, fcloseVolume, Session.unlogged]
    cases reader.volumeFile <;> rfl
  fopen := by
    intro volume
    apply Mirrors.of_run
    intro s
    rcases opened : env.openForReading volume s.io.io with ⟨file, after⟩
    have listed : env.logged.openForReading volume s.io =
        (file, { io := after, requested := s.io.requested ++ [volume] }) := by
      simp only [Environment.logged, opened]
    rw [fopenVolume_eq env (s := s.unlogged) opened, fopenVolume_eq env.logged listed]
    rfl
  fread := by
    intro count
    apply Mirrors.of_run
    intro s
    cases opened : s.reader.volumeFile with
    | none =>
        have still : s.unlogged.reader.volumeFile = none := opened
        rw [freadVolume, freadVolume, opened, still]
    | some file =>
        rcases read : env.callbacks.fread file count s.io.io with ⟨data, after, io⟩
        have listed : env.logged.callbacks.fread file count s.io =
            (data, after, { s.io with io := io }) := by
          simp only [Environment.logged, Callbacks.logged, read]
        rw [freadVolume_eq env (s := s.unlogged) opened read, freadVolume_eq env.logged opened listed]
        rfl
  fseek := by
    intro offset
    apply Mirrors.of_run
    rintro ⟨reader, fd, output, io⟩
    rw [fseekVolume, fseekVolume, Session.unlogged]
    cases reader.volumeFile <;> rfl
  ftell := by
    apply Mirrors.of_run
    rintro ⟨reader, fd, output, io⟩
    rw [ftellVolume, ftellVolume, Session.unlogged]
    cases reader.volumeFile <;> rfl
  libraries := rfl
  index := by
    rintro s _ rfl
    rfl
  volume := by
    rintro s _ rfl
    rfl
  left := by
    rintro s _ rfl
    rfl
  volumeHeader := by
    rintro s _ rfl
    rfl
  descriptor := by
    rintro s _ rfl
    rfl
  gone := fun _ _ _ _ _ gone => gone
  change := by
    rintro s _ volume volumeHeader left fd rfl
    rfl
  seed := by
    rintro s _ rfl
    rfl
  goneSeed := fun _ _ gone => gone
  changeSeed := by
    rintro s _ seed rfl
    rfl

theorem requested_freadVolume (requested : List Int) (count : Nat) :
    Preserves (fun s : Session (Logged σ) H => s.io.requested = requested)
      (freadVolume env.logged count) := by
  intro s holds
  rw [freadVolume]
  cases s.reader.volumeFile with
  | none => exact holds
  | some file =>
      simp only
      split <;> exact holds

theorem requested_ftellVolume (requested : List Int) :
    Preserves (fun s : Session (Logged σ) H => s.io.requested = requested) (ftellVolume env.logged) := by
  intro s holds
  rw [ftellVolume]
  cases s.reader.volumeFile <;> exact holds

theorem requested_fseekVolume (requested : List Int) (offset : Int) :
    Preserves (fun s : Session (Logged σ) H => s.io.requested = requested)
      (fseekVolume env.logged offset) := by
  intro s holds
  rw [fseekVolume]
  cases s.reader.volumeFile <;> exact holds

/-- Opening a volume asks for that volume and for no other. -/
theorem readerOpenVolume_requests (volume : Int) (s : Session (Logged σ) H) :
    (readerOpenVolume env.logged header volume s).2.io.requested = s.io.requested ++ [volume] := by
  have closes : ∃ t, fcloseVolume env.logged s = (.ret (), t) ∧ t.io.requested = s.io.requested := by
    rw [fcloseVolume]
    cases s.reader.volumeFile with
    | none => exact ⟨s, rfl, rfl⟩
    | some file => exact ⟨_, rfl, rfl⟩
  obtain ⟨t, closed, same⟩ := closes
  rw [readerOpenVolume, Proc.bind_of_ret closed]
  refine @Leads.bind _ _ _ (fun u => u.io.requested = s.io.requested)
    (fun u => u.io.requested = s.io.requested ++ [volume]) _ _ _ ?_ (fun _ holds => holds) ?_ t same
  · intro u holds
    rw [fopenVolume_eq env.logged rfl]
    show u.io.requested ++ [volume] = _
    rw [holds]
  · intro _
    refine Preserves.bind (requested_freadVolume env _ _) fun tmp => ?_
    refine .bind (.ofExit _) fun _ => .bind (.modify fun _ holds => holds) fun _ => ?_
    refine .bind (requested_freadVolume env _ _) fun block => .bind (.access _) fun volumeHeader => ?_
    refine .bind (.modify fun _ holds => holds) fun _ => .bind (.gets _) fun portion => ?_
    cases portion with
    | none => exact .pure ()
    | some portion =>
        refine .bind (.modify fun _ holds => holds) fun _ => ?_
        exact .bind (requested_fseekVolume env _ _) fun _ => .modify fun _ holds => holds

end

/-! ### Volumes that cannot be opened -/

section

variable (libraries : Libraries) {header : Header}

/-- `unshield_reader_open_volume` can succeed on the volume. -/
def CanOpen (header : Header) (cabinets : Int → Option Bytes) (volume : Int) : Prop :=
  ∃ content volumeHeader, Opens header cabinets volume content volumeHeader

theorem freadVolume_fails {s : DiskSession} {file : Stream} {count : Nat}
    (opened : s.reader.volumeFile = some file)
    (short : ((file.content.drop file.position).take count).length ≠ count) :
    ∃ after, freadVolume libraries.onDisk count s =
      (.fail, { s with reader.volumeFile := some after }) := by
  rw [freadVolume_eq libraries.onDisk opened rfl, if_neg short]
  exact ⟨_, rfl⟩

/-- The headers of a volume that cannot be opened are not read. -/
theorem openHeaders_fails {volume : Int} {s : DiskSession}
    (closed : ¬ CanOpen header s.io.store.cabinets volume) :
    ∃ t, openHeaders libraries.onDisk header volume s = (.fail, t) ∧
      t.fileDescriptor = s.fileDescriptor ∧ SameAround s t := by
  have store : (closeVolume s).io.store = s.io.store := closeVolume_store
  rw [openHeaders, Proc.bind_of_ret (fcloseVolume_run libraries)]
  cases cabinet : s.io.store.cabinets volume with
  | none =>
      have missing : Disk.openForReading volume (closeVolume s).io = (none, (closeVolume s).io) := by
        rw [Disk.openForReading, store, cabinet]
        rfl
      rw [Proc.bind_of_fail (fopenVolume_eq libraries.onDisk missing)]
      exact ⟨_, rfl, rfl, rfl, store, rfl⟩
  | some content =>
      rw [Proc.bind_of_ret (fopenVolume_run libraries (by rw [store]; exact cabinet))]
      by_cases long : commonHeaderSize ≤ content.length
      · have front : (content.take commonHeaderSize).length = commonHeaderSize :=
          List.length_take_of_le long
        rw [Proc.bind_of_ret (freadVolume_run libraries rfl rfl front)]
        rcases readCommonHeader_orderly (Nat.le_of_eq front.symm) with ⟨common, read⟩ | wrong
        · simp only [List.drop_zero, Nat.zero_add, read, Proc.ofExit_ret_bind_run,
            Proc.modify_bind_run]
          by_cases whole : ((content.drop commonHeaderSize).take (volumeHeaderSize header)).length =
              volumeHeaderSize header
          · obtain ⟨volumeHeader, parsed⟩ := readVolumeHeader_isSome (Nat.le_of_eq whole.symm)
            refine absurd ⟨content, volumeHeader, cabinet, ?_, ⟨common, read⟩, parsed⟩ closed
            rw [List.length_take, List.length_drop] at whole
            omega
          · obtain ⟨after, failed⟩ := @freadVolume_fails libraries
              { closeVolume s with
                reader :=
                  { (closeVolume s).reader with
                    volumeFile := some { content, position := commonHeaderSize }
                    volumeHeader := {} } } _ _ rfl whole
            exact ⟨_, Proc.bind_of_fail failed, rfl, rfl, store, rfl⟩
        · simp only [List.drop_zero, wrong]
          exact ⟨_, rfl, rfl, rfl, store, rfl⟩
      · obtain ⟨after, failed⟩ := @freadVolume_fails libraries
          { closeVolume s with reader.volumeFile := some { content } } _ commonHeaderSize rfl
          (by
            simp only [List.drop_zero, List.length_take]
            omega)
        exact ⟨_, Proc.bind_of_fail failed, rfl, rfl, store, rfl⟩

theorem readerOpenVolume_fails {volume : Int} {s : DiskSession}
    (closed : ¬ CanOpen header s.io.store.cabinets volume) :
    ∃ t, readerOpenVolume libraries.onDisk header volume s = (.fail, t) ∧
      t.fileDescriptor = s.fileDescriptor ∧ SameAround s t := by
  obtain ⟨t, failed, same⟩ := openHeaders_fails libraries closed
  rw [readerOpenVolume_eq]
  exact ⟨t, Proc.bind_of_fail failed, same⟩

/-! ### One turn of the search -/

/-- The search does not go past the volume: it cannot be opened, or it reaches to the file. -/
def EndsSearch (header : Header) (cabinets : Int → Option Bytes) (index : Int) (volume : Nat) : Prop :=
  ¬ CanOpen header cabinets volume ∨
    ∃ content volumeHeader, Opens header cabinets volume content volumeHeader ∧
      index ≤ volumeHeader.lastFileIndex.toInt32.toInt

/-- A session of a cabinet that was opened with the default callbacks, with the list of requests. -/
abbrev LoggedSession := Session (Logged Disk) Stream

/-- What has become of the session when `volumes` have been asked for. -/
structure Searched (s t : LoggedSession) (volumes : List Int) : Prop where
  descriptor : UpToSearch s.fileDescriptor t.fileDescriptor
  store : t.io.io.store = s.io.io.store
  requested : t.io.requested = s.io.requested ++ volumes

namespace Searched

theorem refl (s : LoggedSession) : Searched s s [] :=
  ⟨.refl s.fileDescriptor, rfl, (List.append_nil _).symm⟩

theorem trans {s t u : LoggedSession} {first second : List Int} (one : Searched s t first)
    (two : Searched t u second) : Searched s u (first ++ second) := by
  refine ⟨one.descriptor.trans two.descriptor, two.store.trans one.store, ?_⟩
  rw [two.requested, one.requested, List.append_assoc]

end Searched

theorem readerOpenVolume_searched {volume : Int} (s : LoggedSession) :
    ∃ t, Searched s t [volume] ∧ t.fileDescriptor.volume = s.fileDescriptor.volume ∧
      ((readerOpenVolume libraries.onDisk.logged header volume s = (.fail, t) ∧
          ¬ CanOpen header s.io.io.store.cabinets volume) ∨
        ∃ content volumeHeader, Opens header s.io.io.store.cabinets volume content volumeHeader ∧
          readerOpenVolume libraries.onDisk.logged header volume s = (.ret (), t) ∧
          t.reader.volumeHeader = volumeHeader ∧
          ∃ position, t.reader.volumeFile = some { content, position }) := by
  have requests := readerOpenVolume_requests libraries.onDisk header volume s
  have mirrors := Mirrors.run ((readsInStep_unlogged libraries.onDisk).readerOpenVolume header volume) s
  rcases run : readerOpenVolume libraries.onDisk.logged header volume s with ⟨exit, t⟩
  rw [run] at requests mirrors
  by_cases can : CanOpen header s.io.io.store.cabinets volume
  · obtain ⟨content, volumeHeader, opens⟩ := can
    rw [readerOpenVolume_run libraries (s := s.unlogged) opens] at mirrors
    obtain ⟨returned, same⟩ := Prod.mk.inj mirrors
    simp only at returned same
    have descriptor : t.fileDescriptor = _ :=
      (congrArg Session.fileDescriptor same.symm).trans enterVolume_fileDescriptor
    obtain ⟨position, file⟩ : ∃ position, t.reader.volumeFile = some { content, position } := by
      have entered := @enterVolume_volumeFile header volume content volumeHeader s.unlogged
      rw [same] at entered
      exact entered
    refine ⟨t, ⟨?_, ?_, requests⟩, ?_, Or.inr ⟨content, volumeHeader, opens, ?_, ?_, position, file⟩⟩
    · rw [descriptor]
      exact upToSearch_markSplit _ _ _ _
    · have around := @enterVolume_sameAround header volume content volumeHeader s.unlogged
      rw [same] at around
      exact around.store
    · rw [descriptor, markSplit_volume]
      rfl
    · rw [← returned]
    · exact (congrArg (fun u => u.reader.volumeHeader) same.symm).trans enterVolume_volumeHeader
  · obtain ⟨u, failed, descriptor, around⟩ :=
      readerOpenVolume_fails libraries (s := s.unlogged) can
    rw [failed] at mirrors
    obtain ⟨returned, same⟩ := Prod.mk.inj mirrors
    simp only at returned same
    subst same
    refine ⟨t, ⟨?_, around.store, requests⟩, ?_, Or.inl ⟨?_, can⟩⟩
    · rw [show t.fileDescriptor = s.fileDescriptor from descriptor]
      exact .refl _
    · exact congrArg FileDescriptor.volume descriptor
    · rw [← returned]

/-- Of two volumes that open, the search passes over the one that ends before the file. -/
theorem readerCreateTurn_passes {index : Int} {s : LoggedSession} (old : header.majorVersion ≤ 5)
    (goes_on : ¬ EndsSearch header s.io.io.store.cabinets index s.fileDescriptor.volume.toNat) :
    ∃ t, Searched s t [(s.fileDescriptor.volume.toNat : Int)] ∧
      t.fileDescriptor.volume = s.fileDescriptor.volume + 1 ∧
      readerCreateTurn libraries.onDisk.logged header index () s = (.ret (.again ()), t) := by
  obtain ⟨t, searched, volume, ⟨_, closed⟩ | ⟨content, volumeHeader, opens, run, read, _⟩⟩ :=
    @readerOpenVolume_searched libraries header s.fileDescriptor.volume.toNat s
  · exact absurd (Or.inl closed) goes_on
  · have before : volumeHeader.lastFileIndex.toInt32.toInt < index := by
      by_contra reaches
      exact goes_on (Or.inr ⟨content, volumeHeader, opens, Int.not_lt.1 reaches⟩)
    refine ⟨{ t with fileDescriptor := { t.fileDescriptor with volume := t.fileDescriptor.volume + 1 } },
      ⟨searched.descriptor.next _, searched.store, searched.requested⟩, congrArg (· + 1) volume, ?_⟩
    rw [readerCreateTurn, Proc.gets_bind_run, Proc.bind_of_ret run, Proc.gets_bind_run, read,
      if_pos ⟨old, before⟩, Proc.modify_bind_run]
    rfl

/-- The reader has come to its volume, or there it has failed. -/
def Ends (header : Header) (cabinets : Int → Option Bytes) (volume : Nat) (exit : Exit Unit)
    (volumeFile : Option Stream) : Prop :=
  (exit = .ret () ∧ CanOpen header cabinets volume ∧
    ∃ file, volumeFile = some file ∧ cabinets volume = some file.content) ∨
  (exit = .fail ∧ ¬ CanOpen header cabinets volume)

theorem readerCreateTurn_ends {index : Int} {s : LoggedSession}
    (last : EndsSearch header s.io.io.store.cabinets index s.fileDescriptor.volume.toNat) :
    ∃ t, Searched s t [(s.fileDescriptor.volume.toNat : Int)] ∧
      t.fileDescriptor.volume = s.fileDescriptor.volume ∧
      ((readerCreateTurn libraries.onDisk.logged header index () s = (.fail, t) ∧
          ¬ CanOpen header s.io.io.store.cabinets s.fileDescriptor.volume.toNat) ∨
        (readerCreateTurn libraries.onDisk.logged header index () s = (.ret (.done ()), t) ∧
          CanOpen header s.io.io.store.cabinets s.fileDescriptor.volume.toNat ∧
          ∃ file, t.reader.volumeFile = some file ∧
            s.io.io.store.cabinets s.fileDescriptor.volume.toNat = some file.content)) := by
  obtain ⟨t, searched, volume, ⟨run, closed⟩ | ⟨content, volumeHeader, opens, run, read, position, file⟩⟩ :=
    @readerOpenVolume_searched libraries header s.fileDescriptor.volume.toNat s
  · refine ⟨t, searched, volume, Or.inl ⟨?_, closed⟩⟩
    rw [readerCreateTurn, Proc.gets_bind_run, Proc.bind_of_fail run]
  · have reaches : ¬ volumeHeader.lastFileIndex.toInt32.toInt < index := by
      rcases last with closed | ⟨content', volumeHeader', opens', reaches⟩
      · exact absurd ⟨content, volumeHeader, opens⟩ closed
      · rw [(opens.unique opens').2]
        exact Int.not_lt.2 reaches
    refine ⟨t, searched, volume,
      Or.inr ⟨?_, ⟨content, volumeHeader, opens⟩, _, file, opens.cabinet⟩⟩
    rw [readerCreateTurn, Proc.gets_bind_run, Proc.bind_of_ret run, Proc.gets_bind_run, read,
      if_neg fun both => reaches both.2]
    rfl

/-! ### The search -/

/-- `count` volume numbers from `start` on. -/
def volumesFrom (start count : Nat) : List Int :=
  (List.range' start count).map Int.ofNat

theorem volumesFrom_succ (start count : Nat) :
    volumesFrom start (count + 1) = volumesFrom start count ++ [((start + count : Nat) : Int)] := by
  rw [volumesFrom, List.range'_1_concat, List.map_append]
  rfl

/-- The search that starts with `s` is about to try the volume. -/
structure ComesTo (s : LoggedSession) (volume : Nat) (t : LoggedSession) : Prop where
  here : t.fileDescriptor.volume.toNat = volume
  from_start : s.fileDescriptor.volume.toNat ≤ volume
  searched : Searched s t
    (volumesFrom s.fileDescriptor.volume.toNat (volume - s.fileDescriptor.volume.toNat))

theorem ComesTo.asks {s t u : LoggedSession} {volume : Nat} (comes : ComesTo s volume t)
    (asked : Searched t u [(t.fileDescriptor.volume.toNat : Int)]) :
    Searched s u
      (volumesFrom s.fileDescriptor.volume.toNat (volume + 1 - s.fileDescriptor.volume.toNat)) := by
  have searched := comes.searched.trans asked
  rw [comes.here] at searched
  rw [Nat.sub_add_comm comes.from_start, volumesFrom_succ, Nat.add_sub_of_le comes.from_start]
  exact searched

theorem ComesTo.passes {index : Int} {volume : Nat} {s t : LoggedSession} (comes : ComesTo s volume t)
    (old : header.majorVersion ≤ 5) (bound : volume < 65535)
    (goes_on : ¬ EndsSearch header s.io.io.store.cabinets index volume) :
    ∃ u, readerCreateTurn libraries.onDisk.logged header index () t = (.ret (.again ()), u) ∧
      ComesTo s (volume + 1) u := by
  obtain ⟨u, asked, next, turn⟩ := @readerCreateTurn_passes libraries header index t old
    (by rw [comes.searched.store, comes.here]; exact goes_on)
  have counted : u.fileDescriptor.volume.toNat = volume + 1 := by
    rw [next, UInt16.toNat_add, comes.here]
    show (volume + 1) % 65536 = _
    omega
  exact ⟨u, turn, counted, Nat.le_succ_of_le comes.from_start, comes.asks asked⟩

/-- What the session looks like when `unshield_reader_create` has ended at the volume. -/
structure EndedAt (header : Header) (cabinets : Int → Option Bytes) (volume : Nat) (exit : Exit Unit)
    (t : LoggedSession) : Prop where
  here : t.fileDescriptor.volume.toNat = volume
  orderly : exit = .ret () ∨ exit = .fail
  returned : exit = .ret () ↔ CanOpen header cabinets volume
  opened : exit = .ret () → ∃ file, t.reader.volumeFile = some file ∧ cabinets volume = some file.content

/-- The search opens one volume after the other and comes to the first one that ends it. -/
theorem readerCreate_searches {index : Int} {last fuel : Nat} {s : LoggedSession}
    (old : header.majorVersion ≤ 5) (from_start : s.fileDescriptor.volume.toNat ≤ last)
    (bound : last ≤ 65535) (ends : EndsSearch header s.io.io.store.cabinets index last)
    (first : ∀ volume, s.fileDescriptor.volume.toNat ≤ volume → volume < last →
      ¬ EndsSearch header s.io.io.store.cabinets index volume)
    (enough : last - s.fileDescriptor.volume.toNat < fuel) :
    ∃ exit t, readerCreate libraries.onDisk.logged header fuel index s = (exit, t) ∧
      Searched s t (volumesFrom s.fileDescriptor.volume.toNat
        (last + 1 - s.fileDescriptor.volume.toNat)) ∧
      EndedAt header s.io.io.store.cabinets last exit t := by
  let fresh : LoggedSession := { s with reader := { index := UInt32.ofInt index } }
  obtain ⟨_, u, comes, run⟩ := @Proc.iterate_passes _ _ _
    (readerCreateTurn libraries.onDisk.logged header index)
    (fun volume _ u => ComesTo fresh volume u) last
    (by
      rintro volume ⟨⟩ u less comes
      obtain ⟨t, turn, there⟩ :=
        comes.passes libraries old (by omega) (first volume comes.from_start less)
      exact ⟨(), t, turn, there⟩)
    (last - s.fileDescriptor.volume.toNat) () fresh s.fileDescriptor.volume.toNat
    (Nat.add_sub_of_le from_start)
    ⟨rfl, Nat.le_refl _, by rw [Nat.sub_self]; exact .refl fresh⟩
  have store : u.io.io.store = s.io.io.store := comes.searched.store
  obtain ⟨t, asked, volume, outcome⟩ := @readerCreateTurn_ends libraries header index u
    (by rw [store, comes.here]; exact ends)
  rw [store, comes.here] at outcome
  have searched := comes.asks asked
  have here : t.fileDescriptor.volume.toNat = last := by rw [volume, comes.here]
  obtain ⟨more, rfl⟩ : ∃ more, fuel = last - s.fileDescriptor.volume.toNat + (more + 1) :=
    ⟨fuel - (last - s.fileDescriptor.volume.toNat) - 1, by omega⟩
  rw [readerCreate]
  rcases outcome with ⟨turn, closed⟩ | ⟨turn, can, opened⟩
  · rw [run, Proc.iterate_succ_of_fail turn]
    refine ⟨.fail, freeReader t, rfl, ⟨searched.descriptor, searched.store, searched.requested⟩,
      ⟨here, Or.inr rfl, ⟨?_, fun can => absurd can closed⟩, ?_⟩⟩
    · intro ret
      cases ret
    · intro ret
      cases ret
  · rw [run, Proc.iterate_succ_of_done turn]
    exact ⟨.ret (), t, rfl, ⟨searched.descriptor, searched.store, searched.requested⟩,
      ⟨here, Or.inl rfl, ⟨fun _ => can, fun _ => rfl⟩, fun _ => opened⟩⟩

/-- The first volume from the start on that ends the search. -/
structure FirstEnd (header : Header) (cabinets : Int → Option Bytes) (index : Int) (start volume : Nat) :
    Prop where
  from_start : start ≤ volume
  bound : volume ≤ 65535
  ends : EndsSearch header cabinets index volume
  first : ∀ earlier, start ≤ earlier → earlier < volume → ¬ EndsSearch header cabinets index earlier

theorem exists_firstEnd {cabinets : Int → Option Bytes} {index : Int} {start : Nat}
    (some_end : ∃ volume, start ≤ volume ∧ volume ≤ 65535 ∧ EndsSearch header cabinets index volume) :
    ∃ volume, FirstEnd header cabinets index start volume := by
  classical
  have searched : ∃ volume, start ≤ volume ∧ EndsSearch header cabinets index volume := by
    obtain ⟨volume, low, _, ends⟩ := some_end
    exact ⟨volume, low, ends⟩
  obtain ⟨last, low, high, ends⟩ := some_end
  have least := Nat.find_spec searched
  refine ⟨Nat.find searched, least.1, Nat.le_trans (Nat.find_min' searched ⟨low, ends⟩) high, least.2, ?_⟩
  intro earlier low' before ends'
  exact Nat.find_min searched before ⟨low', ends'⟩

/-- If some volume ends the search, `unshield_reader_create` comes to the first such volume, with whatever
fuel there is for that many turns; it succeeds if that volume can be opened, which is then the one the
reader has open, and the descriptor remembers the volume and changes in nothing else but perhaps its
mark.  Created again, with the same cabinets, the reader ends in the same way and asks for that volume
only. -/
theorem volume_search_selects_start (index : Int) (s : LoggedSession) (old : header.majorVersion ≤ 5)
    (some_end : ∃ volume, s.fileDescriptor.volume.toNat ≤ volume ∧ volume ≤ 65535 ∧
      EndsSearch header s.io.io.store.cabinets index volume) :
    ∃ last, FirstEnd header s.io.io.store.cabinets index s.fileDescriptor.volume.toNat last ∧
      ∀ fuel > last - s.fileDescriptor.volume.toNat, ∃ exit t,
        readerCreate libraries.onDisk.logged header fuel index s = (exit, t) ∧
        Searched s t (volumesFrom s.fileDescriptor.volume.toNat
          (last + 1 - s.fileDescriptor.volume.toNat)) ∧
        EndedAt header s.io.io.store.cabinets last exit t ∧
        ∀ s' : LoggedSession, s'.fileDescriptor = t.fileDescriptor →
          s'.io.io.store.cabinets = s.io.io.store.cabinets → ∀ fuel' > 0, ∃ t',
            readerCreate libraries.onDisk.logged header fuel' index s' = (exit, t') ∧
            Searched s' t' [(last : Int)] ∧
            EndedAt header s.io.io.store.cabinets last exit t' := by
  obtain ⟨last, firstEnd⟩ := exists_firstEnd some_end
  refine ⟨last, firstEnd, fun fuel enough => ?_⟩
  obtain ⟨exit, t, run, searched, ended⟩ := readerCreate_searches libraries old firstEnd.from_start
    firstEnd.bound firstEnd.ends firstEnd.first enough
  refine ⟨exit, t, run, searched, ended, ?_⟩
  intro s' descriptor cabinets fuel' some_fuel
  have here : s'.fileDescriptor.volume.toNat = last := by rw [descriptor, ended.here]
  obtain ⟨exit', t', run', searched', ended'⟩ := @readerCreate_searches libraries header index last fuel' s'
    old (Nat.le_of_eq here) firstEnd.bound (by rw [cabinets]; exact firstEnd.ends)
    (fun volume low high => absurd (Nat.lt_of_le_of_lt low high) (by omega)) (by omega)
  rw [cabinets] at ended'
  rw [here, Nat.add_sub_cancel_left] at searched'
  have same : exit' = exit := by
    rcases ended.orderly with rfl | rfl
    · exact ended'.returned.2 (ended.returned.1 rfl)
    · rcases ended'.orderly with rfl | rfl
      · exact (ended.returned.2 (ended'.returned.1 rfl)).symm
      · rfl
  subst same
  exact ⟨t', run', searched', ended'⟩

end

/-- Two volumes, of which the first one ends with the file 0 and the second one with the file 2. -/
def searchedDisk : Disk :=
  shelfDisk [segmentVolume (smallHeader 5) 0 [0x61], segmentVolume (smallHeader 5) 2 [0x61]] 0 (by decide)
    room_zero_lt

/-- The descriptor of a file that is said to start in the first volume. -/
def searchedSession : LoggedSession where
  reader := { index := 0 }
  fileDescriptor := { volume := 1 }
  io := { io := searchedDisk }

/-- The file 2 is found in the second volume, and from then on without the first one. -/
theorem volume_search_second :
    ∃ exit t, readerCreate smallLibraries.onDisk.logged (smallHeader 5) 2 2 searchedSession = (exit, t) ∧
      exit = .ret () ∧ t.fileDescriptor.volume.toNat = 2 ∧ t.io.requested = [1, 2] := by
  have first : Opens (smallHeader 5) searchedDisk.store.cabinets (1 : Nat) _ _ :=
    @opens_segmentVolume _ _ 0 _ [0x61] rfl
  have second : Opens (smallHeader 5) searchedDisk.store.cabinets (2 : Nat) _ _ :=
    @opens_segmentVolume _ _ 2 _ [0x61] rfl
  have ends : EndsSearch (smallHeader 5) searchedDisk.store.cabinets 2 2 :=
    Or.inr ⟨_, _, second, by decide⟩
  obtain ⟨last, firstEnd, created⟩ := @volume_search_selects_start smallLibraries (smallHeader 5) 2
    searchedSession (by decide) ⟨2, by decide, by decide, ends⟩
  have low : 1 ≤ last := firstEnd.from_start
  have passed : last ≠ 1 := by
    rintro rfl
    rcases firstEnd.ends with closed | ⟨content, volumeHeader, opens, reaches⟩
    · exact closed ⟨_, _, first⟩
    · rw [(opens.unique first).2] at reaches
      revert reaches
      decide
  have found : last = 2 := by
    by_contra other
    exact firstEnd.first 2 (by decide) (by omega) ends
  subst found
  obtain ⟨exit, t, run, searched, ended, _⟩ := created 2 (by decide)
  exact ⟨exit, t, run, ended.returned.2 ⟨_, _, second⟩, ended.here, searched.requested⟩

end Unshield
