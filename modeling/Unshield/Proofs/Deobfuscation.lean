/-
Module: Unshield.Proofs.Deobfuscation
Purpose: Deobfuscation is a keystream code that can be undone: it does not show how a file was cut into
  buffers, so that the reader and the stand-alone program decode a file alike.
Trusted boundary: none
Main exports: deobfuscation, deobfuscate_eq_run, obfuscate, readEach, readEach_clear,
  deobfuscateMain_run, deobfuscation_is_streaming_bijection
-/
import Unshield.Core.DeobfuscateTool
import Unshield.Foundation.Keystream
import Unshield.Proofs.ReaderFrame
import Unshield.Proofs.ReaderLockstep
import Unshield.Proofs.SaveSteps
import Unshield.Proofs.VolumeFormat

namespace Unshield

open Procedure Procedure.Proc

/-! ### Bytes -/

/-- `rol8(x, 2)` -/
def rol8 (x : UInt8) : UInt8 := x <<< 2 ||| x >>> 6

/-- What is subtracted from a byte. -/
def keyByte (seed : UInt32) : UInt8 := (seed % 0x47).toUInt8

/-- The byte that a clear byte was deobfuscated from. -/
def obfuscateByte (seed : UInt32) (byte : UInt8) : UInt8 := rol8 (byte + keyByte seed) ^^^ 0xd5

/-- The store of `ror8(*buffer ^ 0xd5, 2) - (tmp_seed % 0x47)` as the language evaluates it: the byte is
promoted, the difference has 32 bits, and the store keeps the low eight of them. -/
def promotedByte (seed : UInt32) (byte : UInt8) : UInt8 :=
  let x := byte.toUInt32 ^^^ 0xd5
  ((x >>> 2 ||| x <<< 6) - seed % 0x47).toUInt8

theorem rol8_ror8 (x : UInt8) : rol8 (x >>> 2 ||| x <<< 6) = x := by
  revert x
  apply Bits.forall_uint8
  decide

theorem ror8_rol8 (x : UInt8) : (rol8 x >>> 2 ||| rol8 x <<< 6) = x := by
  revert x
  apply Bits.forall_uint8
  decide

theorem promotedByte_eq (seed : UInt32) (byte : UInt8) :
    promotedByte seed byte = deobfuscateByte seed byte := by
  have rotated : ∀ byte : UInt8,
      ((byte.toUInt32 ^^^ 0xd5) >>> 2 ||| (byte.toUInt32 ^^^ 0xd5) <<< 6).toUInt8 =
        ((byte ^^^ 0xd5) >>> 2 ||| (byte ^^^ 0xd5) <<< 6) := by
    apply Bits.forall_uint8
    decide
  rw [promotedByte, deobfuscateByte, UInt32.toUInt8_sub, rotated]

theorem obfuscateByte_deobfuscateByte (seed : UInt32) (byte : UInt8) :
    obfuscateByte seed (deobfuscateByte seed byte) = byte := by
  rw [obfuscateByte, deobfuscateByte, keyByte, UInt8.sub_add_cancel, rol8_ror8, UInt8.xor_assoc,
    UInt8.xor_self, UInt8.xor_zero]

theorem deobfuscateByte_obfuscateByte (seed : UInt32) (byte : UInt8) :
    deobfuscateByte seed (obfuscateByte seed byte) = byte := by
  rw [deobfuscateByte, obfuscateByte, UInt8.xor_assoc, UInt8.xor_self, UInt8.xor_zero, ror8_rol8,
    keyByte, UInt8.add_sub_cancel]

/-! ### Strings -/

/-- `unshield_deobfuscate` as a code for strings: the seed is the key. -/
def deobfuscation : Keystream UInt32 UInt8 UInt8 where
  next := fun seed => seed + 1
  encode := deobfuscateByte

/-- The way back, under the same seeds. -/
def obfuscation : Keystream UInt32 UInt8 UInt8 where
  next := fun seed => seed + 1
  encode := obfuscateByte

theorem deobfuscate_eq_run (stored : Bytes) (seed : UInt32) :
    deobfuscate stored seed = deobfuscation.run stored seed := by
  induction stored generalizing seed with
  | nil => rfl
  | cons byte rest ih =>
      rw [deobfuscate, Keystream.run_cons, ih]
      rfl

theorem seed_iterate (seed : UInt32) (count : Nat) :
    (fun seed : UInt32 => seed + 1)^[count] seed = UInt32.ofNat (seed.toNat + count) := by
  induction count with
  | zero => simp
  | succ count ih =>
      rw [Function.iterate_succ_apply', ih, ← Nat.add_assoc, UInt32.ofNat_add (seed.toNat + count)]
      rfl

/-- The bytes of consecutive buffers, with the seed threaded through. -/
def deobfuscateEach : List Bytes → UInt32 → List Bytes × UInt32
  | [], seed => ([], seed)
  | buffer :: buffers, seed =>
      let (clear, seed) := deobfuscate buffer seed
      let (rest, seed) := deobfuscateEach buffers seed
      (clear :: rest, seed)

theorem deobfuscateEach_eq_runEach (buffers : List Bytes) (seed : UInt32) :
    deobfuscateEach buffers seed = deobfuscation.runEach buffers seed := by
  induction buffers generalizing seed with
  | nil => rfl
  | cons buffer buffers ih => simp only [deobfuscateEach, Keystream.runEach, deobfuscate_eq_run, ih]

/-- The string that deobfuscates to a clear one. -/
def obfuscate (clear : Bytes) (seed : UInt32) : Bytes :=
  clear.mapIdx fun place byte => obfuscateByte (UInt32.ofNat (seed.toNat + place)) byte

theorem obfuscate_eq_run (clear : Bytes) (seed : UInt32) :
    obfuscate clear seed = (obfuscation.run clear seed).1 := by
  apply List.ext_getElem?
  intro place
  rw [Keystream.getElem?_run, obfuscate, List.getElem?_mapIdx]
  show _ = clear[place]?.map (obfuscateByte ((fun seed : UInt32 => seed + 1)^[place] seed))
  rw [seed_iterate]

theorem obfuscation_undoes : Keystream.Undoes obfuscation deobfuscation id :=
  ⟨fun _ => rfl, obfuscateByte_deobfuscateByte⟩

theorem deobfuscation_undoes : Keystream.Undoes deobfuscation obfuscation id :=
  ⟨fun _ => rfl, deobfuscateByte_obfuscateByte⟩

/-! ### Reads of any sizes -/

section

variable {S : Type}

/-- One read after the other, each into a buffer of its own. -/
def readEach (read : Nat → Proc S Bytes) : List Nat → Proc S (List Bytes)
  | [] => pure []
  | size :: sizes => do
      let buffer ← read size
      let buffers ← readEach read sizes
      pure (buffer :: buffers)

end

section

variable {σ H : Type} (env : Environment σ H) (header : Header)

/-- The loop of `unshield_reader_read`: the bytes as they are stored. -/
def storedRead (size : Nat) : Proc (Session σ H) Bytes :=
  Proc.iterate (readerReadTurn env header) (size + 1) (size, [])

/-- The session with another seed. -/
def reseed (seed : UInt32) (s : Session σ H) : Session σ H :=
  { s with reader.obfuscationOffset := seed }

/-- No operation of the reader looks at the seed. -/
theorem inStep_reseed (seed : UInt32) :
    InStep (fun _ => False) (fun s s' => s' = reseed seed s) env env where
  fclose := by
    apply Mirrors.of_run
    rintro ⟨reader, fd, output, io⟩
    rw [fcloseVolume, fcloseVolume, reseed]
    cases reader.volumeFile <;> rfl
  fopen := by
    intro volume
    apply Mirrors.of_run
    rintro ⟨reader, fd, output, io⟩
    rw [fopenVolume, fopenVolume, reseed]
    simp only
    rcases env.openForReading volume io with ⟨_ | file, after⟩ <;> rfl
  fread := by
    intro count
    apply Mirrors.of_run
    rintro ⟨reader, fd, output, io⟩
    rw [freadVolume, freadVolume, reseed]
    cases reader.volumeFile with
    | none => rfl
    | some file =>
        by_cases full : (env.callbacks.fread file count io).1.length = count
        · simp only [if_pos full]
          rfl
        · simp only [if_neg full]
          rfl
  fseek := by
    intro offset
    apply Mirrors.of_run
    rintro ⟨reader, fd, output, io⟩
    rw [fseekVolume, fseekVolume, reseed]
    cases reader.volumeFile <;> rfl
  ftell := by
    apply Mirrors.of_run
    rintro ⟨reader, fd, output, io⟩
    rw [ftellVolume, ftellVolume, reseed]
    cases reader.volumeFile <;> rfl
  libraries := rfl
  index := by
    rintro s _ rfl
    rfl
  volume := by
    rintro s _ rfl
    rfl
  left := by
    rintro s _ rfl
    rfl
  volumeHeader := by
    rintro s _ rfl
    rfl
  descriptor := by
    rintro s _ rfl
    rfl
  gone := fun _ _ _ _ _ lost => lost
  change := by
    rintro s _ volume volumeHeader left fd rfl
    rfl

/-- The seed does not matter to what is read. -/
theorem mirrors_storedRead (seed : UInt32) (size : Nat) :
    Mirrors (reseed seed) (storedRead env header size) (storedRead env header size) :=
  .iterate ((inStep_reseed env seed).readerReadTurn header) _ _

theorem mirrors_readEach (seed : UInt32) (sizes : List Nat) :
    Mirrors (reseed seed) (readEach (storedRead env header) sizes)
      (readEach (storedRead env header) sizes) := by
  induction sizes with
  | nil => exact .pure _
  | cons size sizes ih =>
      apply Lockstep.bind (mirrors_storedRead env header seed size)
      exact fun buffer => .bind ih fun buffers => .pure _

theorem seed_of_storedRead {size : Nat} {s t : Session σ H} {buffer : Bytes}
    (run : storedRead env header size s = (.ret buffer, t)) :
    t.reader.obfuscationOffset = s.reader.obfuscationOffset := by
  have same := (mirrors_storedRead env header s.reader.obfuscationOffset size).run s
  change storedRead env header size s = _ at same
  rw [run, Prod.mk.injEq] at same
  rw [same.2]
  rfl

/-- Reading does not change whether a file is obfuscated. -/
theorem preserves_obfuscated : Unaffected env fun s => s.fileDescriptor.Has fileObfuscated := by
  refine .of_deaf (fun _ _ holds => holds) (fun s fd search holds => ?_) fun _ _ holds => holds
  rcases search with eq | eq
  · rw [eq]
    exact holds
  · rw [eq]
    exact (has_or_fileSplit (show fileSplit &&& fileObfuscated = 0 from rfl) _).2 holds

/-- Read by read, the reader decodes what is stored. -/
theorem readEach_clear (sizes : List Nat) {s t : Session σ H} {stored : List Bytes}
    (obfuscated : s.fileDescriptor.Has fileObfuscated)
    (run : readEach (storedRead env header) sizes s = (.ret stored, t)) :
    readEach (readerRead env header) sizes s =
      (.ret (deobfuscateEach stored s.reader.obfuscationOffset).1,
        reseed (deobfuscateEach stored s.reader.obfuscationOffset).2 t) := by
  induction sizes generalizing s t stored with
  | nil =>
      obtain ⟨rfl, rfl⟩ := Proc.pure_eq_ret_iff.1 run
      rfl
  | cons size sizes ih =>
      obtain ⟨buffer, u, first, run⟩ := Proc.bind_eq_ret_iff.1 run
      obtain ⟨buffers, v, rest, run⟩ := Proc.bind_eq_ret_iff.1 run
      obtain ⟨rfl, rfl⟩ := Proc.pure_eq_ret_iff.1 run
      have still : u.fileDescriptor.Has fileObfuscated :=
        (Proc.Preserves.iterate ((preserves_obfuscated env).toUnrelated.steady env
          header).readerReadTurn _ _).of_run obfuscated first
      have seed := seed_of_storedRead env header first
      have read : readerRead env header size s =
          (.ret (deobfuscate buffer s.reader.obfuscationOffset).1,
            reseed (deobfuscate buffer s.reader.obfuscationOffset).2 u) := by
        have loop : Proc.iterate (readerReadTurn env header) (size + 1) (size, []) s =
            (.ret buffer, u) := first
        rw [readerRead, Proc.bind_of_ret loop, Proc.gets_bind_run, if_pos still, ← seed]
        rfl
      -- the next reads start under another seed, which does not show in what they find stored
      have later := (mirrors_readEach env header
        (deobfuscate buffer s.reader.obfuscationOffset).2 sizes).run u
      rw [rest] at later
      have there : (reseed (deobfuscate buffer s.reader.obfuscationOffset).2 u).fileDescriptor.Has
          fileObfuscated := still
      rw [readEach, Proc.bind_of_ret read, Proc.bind_of_ret (ih there later)]
      rfl

end

/-! ### The stand-alone program -/

section

variable {content : Bytes} {outputFile : Bytes}

/-- The program has decoded the first bytes of its input. -/
structure Decoding (content outputFile : Bytes) (count : Nat) (vars : ToolVars Stream) (disk : Disk) :
    Prop where
  input : vars.input = { content, position := count }
  seed : vars.seed = (deobfuscate (content.take count) 0).2
  output : vars.output = outputStream outputFile (deobfuscate (content.take count) 0).1
  file : disk.store.files outputFile = some (deobfuscate (content.take count) 0).1
  room : content.length ≤ disk.store.room + count

/-- One turn decodes one more buffer. -/
theorem deobfuscateTurn_run {count : Nat} {vars : ToolVars Stream} {disk : Disk}
    (decoding : Decoding content outputFile count vars disk) (more : count < content.length) :
    ∃ vars' disk', deobfuscateTurn stdio vars disk = (.ret (.again vars'), disk') ∧
      Decoding content outputFile (count + min toolBufferSize (content.length - count)) vars' disk' := by
  obtain ⟨seed, input, output⟩ := vars
  obtain ⟨rfl, rfl, rfl, file, room⟩ := decoding
  obtain ⟨buffer, read⟩ : ∃ buffer, (content.drop count).take toolBufferSize = buffer := ⟨_, rfl⟩
  have size : buffer.length = min toolBufferSize (content.length - count) := by
    rw [← read, List.length_take, List.length_drop]
  have front : content.take (count + buffer.length) = content.take count ++ buffer := by
    rw [List.take_add, size, ← read, ← List.length_drop, ← List.take_eq_take_min]
  have some_left : buffer.length ≠ 0 := by
    rw [size, toolBufferSize]
    omega
  have code := deobfuscate_append (content.take count) buffer 0
  rw [← front] at code
  obtain ⟨clear, seed, decoded⟩ : ∃ clear seed,
      deobfuscate buffer (deobfuscate (content.take count) 0).2 = (clear, seed) := ⟨_, _, rfl⟩
  have same_length : clear.length = buffer.length := by
    have kept := length_deobfuscate buffer (deobfuscate (content.take count) 0).2
    rw [decoded] at kept
    exact kept
  obtain ⟨disk', run, wrote⟩ := @fwrite_run disk outputFile (deobfuscate (content.take count) 0).1
    clear (by omega)
  rw [decoded] at code
  have turn : deobfuscateTurn stdio
      { seed := (deobfuscate (content.take count) 0).2
        input := { content, position := count }
        output := outputStream outputFile (deobfuscate (content.take count) 0).1 } disk =
      (.ret (.again
        { seed := seed
          input := { content, position := count + buffer.length }
          output := outputStream outputFile ((deobfuscate (content.take count) 0).1 ++ clear) }),
        disk') := by
    rw [deobfuscateTurn]
    simp only [Disk.fread, read, if_pos some_left, decoded, run, same_length, ne_eq,
      not_true_eq_false, if_false]
  refine ⟨_, disk', turn, ?_⟩
  rw [← size]
  refine ⟨rfl, ?_, ?_, ?_, ?_⟩
  · rw [code]
  · rw [code]
  · rw [code]
    exact wrote.file
  · rw [wrote.room]
    omega

/-- The program ends with the whole file decoded. -/
theorem deobfuscateLoop_run (fuel : Nat) :
    ∀ {count : Nat} {vars : ToolVars Stream} {disk : Disk},
      Decoding content outputFile count vars disk → content.length - count < fuel →
      count ≤ content.length →
      ∃ disk', Proc.iterate (deobfuscateTurn stdio) fuel vars disk = (.ret 0, disk') ∧
        disk'.store.files outputFile = some (deobfuscate content 0).1 := by
  induction fuel with
  | zero =>
      intro count vars disk _ enough
      cases enough
  | succ fuel ih =>
      intro count vars disk decoding enough inside
      by_cases more : count < content.length
      · obtain ⟨vars', disk', turn, next⟩ := deobfuscateTurn_run decoding more
        rw [Proc.iterate_succ_of_again turn]
        have progress : 0 < min toolBufferSize (content.length - count) := by
          rw [toolBufferSize]
          omega
        exact ih next (by omega) (by omega)
      · have done : count = content.length := by omega
        subst done
        have file := decoding.file
        rw [List.take_length] at file
        have turn : ∀ vars : ToolVars Stream, vars.input = { content, position := content.length } →
            ∃ closed, deobfuscateTurn stdio vars disk =
              (.ret (.done 0), { disk with closed := closed }) := by
          rintro ⟨seed, input, output⟩ rfl
          rw [deobfuscateTurn]
          simp only [Disk.fread, List.drop_length, List.take_nil, List.length_nil, ne_eq,
            not_true_eq_false, if_false]
          exact ⟨_, rfl⟩
        obtain ⟨closed, ended⟩ := turn vars decoding.input
        exact ⟨_, Proc.iterate_succ_of_done ended, file⟩

theorem deobfuscateMain_run {program inputFile : Bytes} {disk : Disk} {fuel : Nat}
    (found : disk.store.content inputFile = some content)
    (writable : disk.store.writable outputFile = true) (room : content.length ≤ disk.store.room)
    (enough : content.length < fuel) :
    ∃ disk', deobfuscateMain stdio fuel [program, inputFile, outputFile] disk = (.ret 0, disk') ∧
      disk'.store.files outputFile = some (deobfuscate content 0).1 := by
  obtain ⟨disk₁, created, wrote⟩ := fopen_write_run writable
  have start : Decoding content outputFile 0
      { input := { content }, output := outputStream outputFile [] } disk₁ := by
    refine ⟨rfl, rfl, rfl, wrote.file, ?_⟩
    rw [wrote.room]
    exact room.trans (room_le_truncate _ _)
  have opened : stdio.fopen inputFile .readBinary disk = (some { content }, disk) := by
    show Disk.fopen inputFile .readBinary disk = _
    rw [Disk.fopen, found]
    rfl
  have run : deobfuscateMain stdio fuel [program, inputFile, outputFile] disk =
      Proc.iterate (deobfuscateTurn stdio) fuel
        { input := { content }, output := outputStream outputFile [] } disk₁ := by
    show deobfuscateFile stdio fuel inputFile outputFile disk = _
    rw [deobfuscateFile, opened]
    simp only [created]
  rw [run]
  exact deobfuscateLoop_run fuel start (by omega) (Nat.zero_le _)

end

/-! ### The law -/

theorem obfuscate_leftInverse (seed : UInt32) :
    Function.LeftInverse (fun clear => obfuscate clear seed)
      fun stored => (deobfuscate stored seed).1 := by
  intro stored
  show obfuscate (deobfuscate stored seed).1 seed = stored
  rw [obfuscate_eq_run, deobfuscate_eq_run, obfuscation_undoes.run, List.map_id]

theorem obfuscate_rightInverse (seed : UInt32) :
    Function.RightInverse (fun clear => obfuscate clear seed)
      fun stored => (deobfuscate stored seed).1 := by
  intro clear
  show (deobfuscate (obfuscate clear seed) seed).1 = clear
  rw [deobfuscate_eq_run, obfuscate_eq_run, deobfuscation_undoes.run, List.map_id]

/-- Buffers do not show, a byte depends on its own place alone, and there is a way back; so the reader,
whatever sizes it is asked for, and the program decode the same stored bytes alike. -/
theorem deobfuscation_is_streaming_bijection :
    (∀ (buffers : List Bytes) (seed : UInt32),
      deobfuscate buffers.flatten seed =
          ((deobfuscateEach buffers seed).1.flatten, (deobfuscateEach buffers seed).2) ∧
        (deobfuscateEach buffers seed).1.map List.length = buffers.map List.length) ∧
    (∀ (stored : Bytes) (seed : UInt32),
      (deobfuscate stored seed).2.toNat = (seed.toNat + stored.length) % 2 ^ 32) ∧
    (∀ (stored : Bytes) (seed : UInt32) (place : Nat),
      (deobfuscate stored seed).1[place]? =
        stored[place]?.map (promotedByte (UInt32.ofNat (seed.toNat + place)))) ∧
    (∀ seed : UInt32,
      Function.LeftInverse (fun clear => obfuscate clear seed)
          (fun stored => (deobfuscate stored seed).1) ∧
        Function.RightInverse (fun clear => obfuscate clear seed)
          fun stored => (deobfuscate stored seed).1) ∧
    ∀ (σ H : Type) (env : Environment σ H) (header : Header) (sizes : List Nat) (s t : Session σ H)
      (stored : List Bytes), s.fileDescriptor.Has fileObfuscated → s.reader.obfuscationOffset = 0 →
      readEach (storedRead env header) sizes s = (.ret stored, t) →
      ∃ clear u, readEach (readerRead env header) sizes s = (.ret clear, u) ∧
        ∀ (program inputFile outputFile : Bytes) (disk : Disk), inputFile ≠ outputFile →
          disk.store.content inputFile = some stored.flatten →
          disk.store.writable outputFile = true → stored.flatten.length ≤ disk.store.room →
          ∀ fuel > stored.flatten.length, ∃ disk',
            deobfuscateMain stdio fuel [program, inputFile, outputFile] disk = (.ret 0, disk') ∧
              disk'.store.files outputFile = some clear.flatten := by
  refine ⟨?_, ?_, ?_, fun seed => ⟨obfuscate_leftInverse seed, obfuscate_rightInverse seed⟩, ?_⟩
  · intro buffers seed
    rw [deobfuscate_eq_run, deobfuscateEach_eq_runEach]
    exact ⟨Keystream.run_flatten _ buffers seed, Keystream.map_length_runEach _ buffers seed⟩
  · intro stored seed
    rw [deobfuscate_eq_run, Keystream.key_run]
    exact (congrArg UInt32.toNat (seed_iterate seed stored.length)).trans (UInt32.toNat_ofNat' ..)
  · intro stored seed place
    rw [deobfuscate_eq_run, Keystream.getElem?_run,
      show promotedByte (UInt32.ofNat (seed.toNat + place)) = deobfuscateByte _ from
        funext fun byte => promotedByte_eq _ byte, ← seed_iterate]
    rfl
  · intro σ H env header sizes s t stored obfuscated fresh run
    have read := readEach_clear env header sizes obfuscated run
    rw [fresh] at read
    refine ⟨_, _, read, ?_⟩
    intro program inputFile outputFile disk _ found writable room fuel enough
    rw [deobfuscateEach_eq_runEach, ← (Prod.mk.inj (Keystream.run_flatten deobfuscation stored 0)).1,
      ← deobfuscate_eq_run]
    exact deobfuscateMain_run found writable room enough

/-- A reader in front of three obfuscated bytes. -/
def obfuscatedSession : DiskSession where
  reader :=
    { index := 0, volumeFile := some { content := [0x10, 0x20, 0x30] }, volumeBytesLeft := 3 }
  fileDescriptor := { flags := fileObfuscated }
  io := shelfDisk [] 0 no_volume_lt room_zero_lt

/-- A disk with the same bytes in a file of its own. -/
def obfuscatedDisk : Disk where
  store :=
    { cabinets := fun _ => none
      volumeAt := fun _ => none
      files := fun path => if path = [0x69] then some [0x10, 0x20, 0x30] else none
      writable := fun _ => true
      room := 3
      cabinets_lt := nothing_lt
      room_lt := by decide
      volumes_protected := none_protected }

theorem deobfuscation_of_three_bytes :
    ∃ clear u, readEach (readerRead smallLibraries.onDisk (smallHeader 6)) [1, 2] obfuscatedSession =
        (.ret clear, u) ∧
      ∃ disk', deobfuscateMain stdio 4 [[], [0x69], [0x6f]] obfuscatedDisk = (.ret 0, disk') ∧
        disk'.store.files [0x6f] = some clear.flatten := by
  obtain ⟨clear, u, read, decodes⟩ := deobfuscation_is_streaming_bijection.2.2.2.2 Disk Stream
    smallLibraries.onDisk (smallHeader 6) [1, 2] obfuscatedSession _ [[0x10], [0x20, 0x30]]
    (by decide) rfl rfl
  exact ⟨clear, u, read, decodes [] [0x69] [0x6f] obfuscatedDisk (by decide) (by decide) rfl
    (by decide) 4 (by decide)⟩

end Unshield
