import LinuxFff.BoundedStore
import LinuxFff.BufferRows

/-!
# Reading back through the file that wrote

After a successful write the row holds what was accepted, and the file reads on
from its offset. `ex2.c` and `multi_devices.c` set that offset to 0; `ex3.c`
leaves it where an earlier read has put it.
-/

namespace LinuxFff.OwnWrite

open LinuxFff.CString LinuxFff.KernelMemory LinuxFff.SizeArith LinuxFff.BufferDevice
open LinuxFff.CharDevice hiding syscall serve
open LinuxFff.DeviceProduct LinuxFff.ByteStore LinuxFff.BufferRows
open LinuxFff.BufferRows.BufferProgram LinuxFff.BoundedStore

set_option autoImplicit false

def Writes : DeviceCall → Prop
  | .file (.write _ _) => True
  | .file (.pwrite _ _ _) => True
  | _ => False

section Program

variable {program : BufferProgram}

/-- Through the file itself only complete reads of positive counts; through
other files anything that neither writes to the device nor clears it. -/
structure Quiet (key : program.Key) (entry : program.Key × DeviceCall) : Prop where
  own : entry.1 = key → ∃ count, 0 < count ∧ entry.2 = .file (.read count true)
  writes : entry.1 ≠ key → program.rowOf entry.1 = program.rowOf key → ¬Writes entry.2
  clears : entry.1 ≠ key → ∀ cmd copied, entry.2 = .ioctl cmd copied → program.clears cmd = false

def answersThrough (key : program.Key)
    (served : List ((program.Key × DeviceCall) × Answer)) : List Answer :=
  (served.filter fun entry => entry.1.1 = key).map Prod.snd

def countOf : DeviceCall → Nat
  | .file (.read count _) => count
  | _ => 0

def countsThrough (key : program.Key) (calls : List (program.Key × DeviceCall)) : List Nat :=
  (calls.filter fun entry => entry.1 = key).map fun entry => countOf entry.2

/-- The file is open and `rest` is what its reads still have before them. -/
structure Reading (world : World program.Device program.Key) (key : program.Key) (rest : Bytes) :
    Prop where
  sound : program.Sound world
  ahead : ∃ data offset, world.files key = some ⟨data, Int.ofNat offset⟩ ∧
    (program.held world.device (program.rowOf key)).drop offset = rest

variable {world : World program.Device program.Key} {key : program.Key} {rest : Bytes}

theorem own_read (reading : Reading world key rest) (count : Nat) :
    (program.syscall world key (.file (.read count true))).2.bytes = rest.take count ∧
      (program.syscall world key (.file (.read count true))).2.ret = (rest.take count).length ∧
      Reading (program.syscall world key (.file (.read count true))).1 key (rest.drop count) := by
  obtain ⟨data, offset, opened, ahead⟩ := reading.ahead
  have dataEq : data = program.driver.openData (program.minorOf key) :=
    reading.sound.data key _ opened
  have range : Representable (Int.ofNat offset) := reading.sound.range key _ opened
  have after := sound_syscall reading.sound key (.file (.read count true))
  have read := read_held (reading.sound.small (program.row data)) count _ true range
  have rowEq : program.row data = program.rowOf key := by rw [dataEq, rowOf]
  rw [Int.ofNat_eq_natCast, read_held_copied, rowEq, ahead] at read
  simp only [syscall, CharDevice.syscall, opened, Int.ofNat_eq_natCast, read, storedOffset,
    Int.natCast_nonneg, if_true] at after ⊢
  refine ⟨trivial, trivial, after, data, offset + (rest.take count).length, ?_, ?_⟩
  · simp [World.setFile]
  · change (program.held world.device (program.rowOf key)).drop _ = _
    rw [← List.drop_drop, ahead, List.length_take]
    by_cases more : count ≤ rest.length
    · rw [Nat.min_eq_left more]
    · rw [Nat.min_eq_right (by omega), List.drop_length, List.drop_eq_nil_of_le (by omega)]

theorem other_syscall_files {other : program.Key} (apart : other ≠ key)
    (world : World program.Device program.Key) (call : DeviceCall) :
    (program.syscall world other call).1.files key = world.files key := by
  have kept : ∀ (device : program.Device) (file : File),
      (({ world with device } : World _ _).setFile other file).files key = world.files key :=
    fun _ file => Function.update_of_ne (Ne.symm apart) _ _
  rcases call with (_ | ⟨count, copied⟩ | ⟨buf, copy⟩ | ⟨count, place, copied⟩ |
    ⟨buf, place, copy⟩) | ⟨cmd, copied⟩
  case file.openFile => exact kept world.device _
  all_goals
    cases opened : world.files other with
    | none => simp only [syscall, CharDevice.syscall, opened]
    | some file =>
        simp only [syscall, CharDevice.syscall, opened]
        try exact kept _ _

theorem quiet_syscall_held (sound : program.Sound world) {other : program.Key} {call : DeviceCall}
    (quiet : Quiet key (other, call)) (apart : other ≠ key) :
    program.held (program.syscall world other call).1.device (program.rowOf key) =
      program.held world.device (program.rowOf key) := by
  have untouched : ∀ (file : File) (buf : Bytes) (ppos : Int) (copy : UserCopy),
      world.files other = some file → Writes call →
        program.held (program.driver.write world.device file.privateData buf ppos copy).2.1
          (program.rowOf key) = program.held world.device (program.rowOf key) := by
    intro file buf ppos copy opened writes
    apply held_write_other
    · intro same
      rw [sound.data other file opened] at same
      exact quiet.writes apart same.symm writes
    · exact sound.small _
  rcases call with (_ | ⟨count, copied⟩ | ⟨buf, copy⟩ | ⟨count, place, copied⟩ |
    ⟨buf, place, copy⟩) | ⟨cmd, copied⟩
  case file.openFile => rfl
  all_goals
    cases opened : world.files other with
    | none => simp only [syscall, CharDevice.syscall, opened]
    | some file => ?_
  case file.read.some => simp only [syscall, CharDevice.syscall, opened, World.setFile]
  case file.write.some =>
    simp only [syscall, CharDevice.syscall, opened, World.setFile]
    exact untouched file buf _ copy opened trivial
  case file.pread.some => simp only [syscall, CharDevice.syscall, opened]
  case file.pwrite.some =>
    simp only [syscall, CharDevice.syscall, opened]
    exact untouched file buf _ copy opened trivial
  case ioctl.some =>
    simp only [syscall, opened]
    rw [program.ioctl_keeps _ _ _ (quiet.clears apart cmd copied rfl)]

theorem other_call (reading : Reading world key rest) {other : program.Key} {call : DeviceCall}
    (quiet : Quiet key (other, call)) (apart : other ≠ key) :
    Reading (program.syscall world other call).1 key rest := by
  obtain ⟨data, offset, opened, ahead⟩ := reading.ahead
  refine ⟨sound_syscall reading.sound other call, data, offset, ?_, ?_⟩
  · rw [other_syscall_files apart, opened]
  · rw [quiet_syscall_held reading.sound quiet apart, ahead]

/-- The run lemma: the file's reads are those of a reader of `rest`. -/
theorem quiet_reads (reading : Reading world key rest)
    {later : List (program.Key × DeviceCall)} (quiet : ∀ entry ∈ later, Quiet key entry) :
    (answersThrough key (program.serve world later)).map Answer.bytes =
        readThrough rest (countsThrough key later) ∧
      ∀ answer ∈ answersThrough key (program.serve world later),
        answer.ret = answer.bytes.length := by
  induction later generalizing world rest with
  | nil => simp [serve, answersThrough, countsThrough, readThrough]
  | cons entry later ih =>
      rcases entry with ⟨other, call⟩
      have here := quiet (other, call) (by simp)
      have others : ∀ entry ∈ later, Quiet key entry :=
        fun entry member => quiet entry (by simp [member])
      by_cases same : other = key
      case pos =>
        subst same
        obtain ⟨count, -, isRead⟩ := here.own rfl
        change call = .file (.read count true) at isRead
        subst isRead
        obtain ⟨bytes, ret, after⟩ := own_read reading count
        obtain ⟨pieces, lengths⟩ := ih after others
        unfold answersThrough countsThrough at *
        simp only [serve, decide_true, List.filter_cons_of_pos, List.map_cons, readThrough, countOf,
          bytes, pieces, List.mem_cons, forall_eq_or_imp, ret]
        exact ⟨trivial, trivial, lengths⟩
      case neg =>
        have tail := ih (other_call reading here same) others
        unfold answersThrough countsThrough at *
        simp only [serve, same, decide_false, Bool.false_eq_true, not_false_eq_true,
          List.filter_cons_of_neg]
        exact tail

theorem quiet_counts {later : List (program.Key × DeviceCall)}
    (quiet : ∀ entry ∈ later, Quiet key entry) :
    ∀ count ∈ countsThrough key later, 0 < count := by
  intro count member
  obtain ⟨entry, inside, counted⟩ := List.mem_map.mp member
  obtain ⟨within, own⟩ := List.mem_filter.mp inside
  obtain ⟨asked, positive, isRead⟩ := (quiet entry within).own (of_decide_eq_true own)
  rw [← counted, isRead]
  exact positive

/-- Where the write leaves its file: before the accepted bytes, from the offset
that this driver leaves. -/
theorem own_write (sound : program.Sound world) {buf : Bytes} {copy : UserCopy}
    (wrote : 0 < (program.syscall world key (.file (.write buf copy))).2.ret) :
    ∃ data offset, world.files key = some ⟨data, Int.ofNat offset⟩ ∧
      (program.syscall world key (.file (.write buf copy))).2.ret = (clamped buf).length ∧
      Reading (program.syscall world key (.file (.write buf copy))).1 key
        ((clamped buf).drop (if program.resets then 0 else offset)) := by
  have after := sound_syscall sound key (.file (.write buf copy))
  cases opened : world.files key with
  | none => simp [syscall, CharDevice.syscall, opened, ebadf] at wrote
  | some file =>
      rcases file with ⟨data, ppos⟩
      obtain ⟨offset, equal⟩ := Int.eq_ofNat_of_zero_le (sound.range key _ opened).1
      change ppos = offset at equal
      subst equal
      have whole : copy = .whole := by
        by_contra faulty
        simp only [syscall, CharDevice.syscall, opened, program.write_ret, if_neg faulty] at wrote
        unfold efault at wrote
        omega
      subst whole
      obtain ⟨ret, opens, held⟩ := whole_write sound opened buf
      refine ⟨data, offset, rfl, ret, after, data, if program.resets then 0 else offset, ?_, ?_⟩
      · rw [opens]
        split_ifs <;> rfl
      · rw [held]

/-- Every answer is a count of the bytes it delivers, the bytes are the
beginning of what was written, and 0 is answered only after all of it and from
then on. -/
structure ReadsBack (written : Bytes) (answers : List Answer) : Prop where
  counted : ∀ answer ∈ answers, answer.ret = answer.bytes.length
  beginning : (answers.map Answer.bytes).flatten <+: written
  exhausted : ∀ earlier answer later, answers = earlier ++ answer :: later → answer.ret = 0 →
    (earlier.map Answer.bytes).flatten = written ∧ ∀ other ∈ later, other.ret = 0

/-- The last answer is the first 0. -/
def EndsAtZero (answers : List Answer) : Prop :=
  ∃ earlier last, answers = earlier ++ [last] ∧ last.ret = 0 ∧ ∀ answer ∈ earlier, answer.ret ≠ 0

theorem reading_reads_back (reading : Reading world key rest)
    {later : List (program.Key × DeviceCall)} (quiet : ∀ entry ∈ later, Quiet key entry) :
    ReadsBack rest (answersThrough key (program.serve world later)) := by
  obtain ⟨pieces, counted⟩ := quiet_reads reading quiet
  constructor
  case counted => exact counted
  case beginning =>
    rw [pieces]
    exact read_through_prefix rest _
  case exhausted =>
    intro earlier answer others answers zero
    have empty : answer.bytes = [] := by
      have length := counted answer (by simp [answers])
      exact List.eq_nil_of_length_eq_zero (by omega)
    rw [answers, List.map_append, List.map_cons, empty] at pieces
    obtain ⟨complete, nothing⟩ := read_through_exhausted (quiet_counts quiet) pieces.symm
    refine ⟨complete, ?_⟩
    intro other member
    have length := counted other (by simp [answers, member])
    rw [nothing other.bytes (List.mem_map_of_mem member)] at length
    exact length

theorem read_until_zero (reading : Reading world key rest)
    {later : List (program.Key × DeviceCall)} (quiet : ∀ entry ∈ later, Quiet key entry)
    (ends : EndsAtZero (answersThrough key (program.serve world later))) :
    ((answersThrough key (program.serve world later)).map Answer.bytes).flatten = rest := by
  obtain ⟨earlier, last, answers, zero, -⟩ := ends
  have back := reading_reads_back reading quiet
  have length := back.counted last (by simp [answers])
  have empty : last.bytes = [] := List.eq_nil_of_length_eq_zero (by omega)
  rw [answers, List.map_append, List.flatten_append, List.map_singleton, empty]
  simpa using (back.exhausted earlier last [] answers zero).1

def ownReads (key : program.Key) (counts : List Nat) : List (program.Key × DeviceCall) :=
  counts.map fun count => (key, .file (.read count true))

theorem quiet_own_reads (key : program.Key) {counts : List Nat}
    (positive : ∀ count ∈ counts, 0 < count) : ∀ entry ∈ ownReads key counts, Quiet key entry := by
  intro entry member
  obtain ⟨count, asked, equal⟩ := List.mem_map.mp member
  subst equal
  constructor
  case own => exact fun _ => ⟨count, positive count asked, rfl⟩
  case writes => exact fun apart => absurd rfl apart
  case clears => exact fun apart => absurd rfl apart

/-- Two reads of 1024 bytes, or one when nothing is ahead, reach the end. -/
theorem some_reads_end (reading : Reading world key rest)
    (short : rest.length ≤ BufferDevice.bufSize) :
    ∃ later : List (program.Key × DeviceCall), (∀ entry ∈ later, Quiet key entry) ∧
      EndsAtZero (answersThrough key (program.serve world later)) := by
  obtain ⟨-, firstRet, after⟩ := own_read reading BufferDevice.bufSize
  obtain ⟨-, secondRet, -⟩ := own_read after BufferDevice.bufSize
  rw [List.take_of_length_le short] at firstRet
  rw [List.drop_eq_nil_of_le short] at secondRet
  have once : answersThrough key (program.serve world (ownReads key [BufferDevice.bufSize])) =
      [(program.syscall world key (.file (.read BufferDevice.bufSize true))).2] := by
    simp [serve, answersThrough, ownReads]
  have twice : answersThrough key (program.serve world
      (ownReads key [BufferDevice.bufSize, BufferDevice.bufSize])) =
      [(program.syscall world key (.file (.read BufferDevice.bufSize true))).2] ++
        [(program.syscall (program.syscall world key (.file (.read BufferDevice.bufSize true))).1
          key (.file (.read BufferDevice.bufSize true))).2] := by
    simp [serve, answersThrough, ownReads]
  by_cases nothing : rest = []
  · refine ⟨_, quiet_own_reads key (by decide), [], _, once, ?_, by simp⟩
    simpa [nothing] using firstRet
  · refine ⟨_, quiet_own_reads key (by decide), _, _, twice, ?_, ?_⟩
    · simpa using secondRet
    · simpa [firstRet] using nothing

/-- Reading through the file until 0 is returned yields exactly these bytes. -/
def ReadUntilZeroYields (world : World program.Device program.Key) (key : program.Key)
    (written : Bytes) : Prop :=
  ∀ later : List (program.Key × DeviceCall), (∀ entry ∈ later, Quiet key entry) →
    EndsAtZero (answersThrough key (program.serve world later)) →
      ((answersThrough key (program.serve world later)).map Answer.bytes).flatten = written

theorem clamped_take (buf : Bytes) : buf.take (clamped buf).length = clamped buf := by
  rw [clamped_length, clamped_eq]
  by_cases long : BufferDevice.bufSize ≤ buf.length
  · rw [Nat.min_eq_right long]
  · rw [Nat.min_eq_left (by omega), List.take_length, List.take_of_length_le (by omega)]

end Program

/-- `ex2.c` and `multi_devices.c`: from every reachable state, a file that has
written reads its own bytes back, in whatever pieces it asks for them and
whatever other files do meanwhile short of writing. -/
theorem own_write_read_back (abi : Abi) (codes : Ex3.Codes) (source : Source)
    (rewinds : source ≠ .ex3)
    (world : World (program abi codes source).Device (program abi codes source).Key)
    (reached : (program abi codes source).Reached world) (key : (program abi codes source).Key)
    (buf : Bytes) (copy : UserCopy)
    (wrote : 0 < ((program abi codes source).syscall world key (.file (.write buf copy))).2.ret)
    (later : List ((program abi codes source).Key × DeviceCall))
    (quiet : ∀ entry ∈ later, Quiet key entry) :
    ReadsBack
      (buf.take
        ((program abi codes source).syscall world key (.file (.write buf copy))).2.ret.toNat)
      (answersThrough key ((program abi codes source).serve
        ((program abi codes source).syscall world key (.file (.write buf copy))).1 later)) := by
  obtain ⟨data, offset, -, ret, reading⟩ := own_write reached.sound wrote
  have resets : (program abi codes source).resets = true := by
    cases source with
    | ex2 => rfl
    | ex3 => exact absurd rfl rewinds
    | multiDevices => rfl
  rw [if_pos resets, List.drop_zero] at reading
  rw [ret, Int.toNat_natCast, clamped_take]
  exact reading_reads_back reading quiet

def handle : Handle := ⟨⟨1, by decide⟩, 0⟩

/-- A shorter write replaces a longer one that the file had partly read. -/
def partlyRead : List (Handle × DeviceCall) :=
  [(handle, .file .openFile), (handle, .file (.write (ascii "hello") .whole)),
    (handle, .file (.read 3 true))]

def partlyReadWorld : World MultiDevices.Device Handle :=
  (multiProgram .ilp32).after (multiStart fun _ => 255) partlyRead

theorem own_write_read_back_shorter :
    ReadsBack (ascii "ab")
      (@answersThrough (multiProgram .ilp32) handle ((multiProgram .ilp32).serve
        ((multiProgram .ilp32).syscall partlyReadWorld handle
          (.file (.write (ascii "ab") .whole))).1
        (@ownReads (multiProgram .ilp32) handle [1, 9, 9]))) :=
  own_write_read_back .ilp32 triggerCodes .multiDevices (by decide) partlyReadWorld
    ⟨fun _ => 255, partlyRead, rfl⟩ handle (ascii "ab") .whole (by decide)
    (@ownReads (multiProgram .ilp32) handle [1, 9, 9])
    (@quiet_own_reads (multiProgram .ilp32) handle _ (by decide))

/-- `ex3.c`: reading until 0 yields the accepted bytes exactly when the file
was at offset 0 before its write. -/
theorem ex3_own_write_read_back_iff (abi : Abi) (codes : Ex3.Codes)
    (world : World Ex3.Device Nat) (reached : (ex3Program abi codes).Reached world) (key : Nat)
    (buf : Bytes) (copy : UserCopy)
    (wrote : 0 < ((ex3Program abi codes).syscall world key (.file (.write buf copy))).2.ret) :
    @ReadUntilZeroYields (ex3Program abi codes)
        ((ex3Program abi codes).syscall world key (.file (.write buf copy))).1 key
        (buf.take
          ((ex3Program abi codes).syscall world key (.file (.write buf copy))).2.ret.toNat) ↔
      (world.files key).map File.ppos = some 0 := by
  obtain ⟨data, offset, opened, ret, reading⟩ := own_write reached.sound wrote
  have keeps : (ex3Program abi codes).resets = false := rfl
  rw [if_neg (by simp [keeps])] at reading
  have some : 0 < (clamped buf).length := by
    rw [ret] at wrote
    omega
  have short : ((clamped buf).drop offset).length ≤ BufferDevice.bufSize := by
    have bounded := clamped_length_le buf
    rw [List.length_drop]
    omega
  rw [ret, Int.toNat_natCast, clamped_take, opened, Option.map_some, Option.some_inj]
  constructor
  case mp =>
    intro back
    obtain ⟨later, quiet, ends⟩ := some_reads_end reading short
    have whole : (clamped buf).drop offset = clamped buf :=
      (read_until_zero reading quiet ends).symm.trans (back later quiet ends)
    have lengths := congrArg List.length whole
    rw [List.length_drop] at lengths
    simp only [Int.ofNat_eq_natCast]
    omega
  case mpr =>
    intro start later quiet ends
    have zero : offset = 0 := Int.ofNat.inj start
    rw [zero, List.drop_zero] at reading
    exact read_until_zero reading quiet ends

theorem fresh_file_reads_own_write :
    @ReadUntilZeroYields (ex3Program .lp64 triggerCodes)
      ((ex3Program .lp64 triggerCodes).syscall
        ((ex3Program .lp64 triggerCodes).after (ex3Start fun _ => 0)
          [((0 : Nat), .file .openFile)]) (0 : Nat) (.file (.write (ascii "abc") .whole))).1
      (0 : Nat)
      (ascii "abc") :=
  (ex3_own_write_read_back_iff .lp64 triggerCodes
    ((ex3Program .lp64 triggerCodes).after (ex3Start fun _ => 0) [((0 : Nat), .file .openFile)])
    ⟨fun _ => 0, [((0 : Nat), .file .openFile)], rfl⟩ 0 (ascii "abc") .whole (by decide)).mpr
    (by decide)

/-- Every file reads back what it has written. -/
def ReadsOwnWrites (program : BufferProgram) : Prop :=
  ∀ world, program.Reached world → ∀ key buf copy,
    0 < (program.syscall world key (.file (.write buf copy))).2.ret →
      ReadUntilZeroYields (program.syscall world key (.file (.write buf copy))).1 key
        (buf.take (program.syscall world key (.file (.write buf copy))).2.ret.toNat)

/-- The file has read the five bytes that it wrote before. -/
def readThenWrite : List (Nat × DeviceCall) :=
  [(0, .file .openFile), (0, .file (.write (ascii "hello") .whole)), (0, .file (.read 5 true))]

theorem ex3_misses_own_write : ¬ReadsOwnWrites (ex3Program .lp64 triggerCodes) := by
  intro claim
  have reached : (ex3Program .lp64 triggerCodes).Reached
      ((ex3Program .lp64 triggerCodes).after (ex3Start fun _ => 0) readThenWrite) :=
    ⟨fun _ => 0, readThenWrite, rfl⟩
  have yields := claim _ reached (0 : Nat) (ascii "abc") .whole (by decide)
    (@ownReads (ex3Program .lp64 triggerCodes) (0 : Nat) [9])
    (@quiet_own_reads (ex3Program .lp64 triggerCodes) (0 : Nat) _ (by decide))
    ⟨[], _, rfl, by decide, by simp⟩
  exact absurd yields (by decide)

end LinuxFff.OwnWrite
