import LinuxFff.PlainServer
import LinuxFff.StackArray

/-!
# What `server.c` sends live and what it saves

`handle_client` formats what it receives twice: with `snprintf` into the 1024
bytes of `full_msg`, which `broadcast` sends, and with `fprintf` at the end of
`chatlog.txt`. `buffer` has 1024 bytes as well, so a name and a long chunk do
not fit into `full_msg` together.
-/

namespace LinuxFff.LiveAndLogged

open LinuxFff.CString LinuxFff.PlainServer LinuxFff.StackArray

set_option autoImplicit false

structure Username where
  text : Bytes
  noNul : (0 : Byte) ∉ text
  short : text.length ≤ 49

structure Said extends Chunk 1024 where
  noNul : (0 : Byte) ∉ bytes

/-- What `broadcast` sends to every other client, and what `save_chat_to_file`
appends. -/
structure Round where
  live : Bytes
  logged : Bytes
  deriving DecidableEq

/-- The receive loop of `handle_client`. -/
def chatLoop (username : Bytes) : CharArray 1024 → List (Chunk 1024) → List Round
  | _, [] => []
  | buffer, chunk :: rest =>
      let buffer := buffer.receive chunk
      let memory := buffer.array ++ buffer.behind
      ⟨cstr (Notice.text username (.said memory)), savedText username memory⟩ ::
        chatLoop username buffer rest

def line (username : Bytes) (said : Said) : Bytes := username ++ ascii ": " ++ said.bytes

/-- Live and logged text agree, and so do the client that was present and the
one that is sent the log. -/
structure SameText (username : Bytes) (chunks : List Said) (rounds : List Round) : Prop where
  live : rounds.map Round.live = chunks.map (line username)
  logged : rounds.map Round.logged = chunks.map (line username)
  replayed : (replayWrites (rounds.flatMap Round.logged)).flatten = rounds.flatMap Round.live

section Rounds

variable {username : Bytes}

theorem line_length (username : Bytes) (said : Said) :
    (line username said).length = username.length + 2 + said.bytes.length := by
  rw [line, List.length_append, List.length_append]
  rfl

theorem line_no_nul (noNul : (0 : Byte) ∉ username) (said : Said) :
    (0 : Byte) ∉ line username said := by
  rw [line, List.mem_append, List.mem_append, not_or, not_or]
  exact ⟨⟨noNul, by decide⟩, said.noNul⟩

theorem chat_loop_rounds (noNul : (0 : Byte) ∉ username) (buffer : CharArray 1024)
    (chunks : List Said) :
    chatLoop username buffer (chunks.map Said.toChunk) =
      chunks.map fun said => ⟨(line username said).take 1023, line username said⟩ := by
  induction chunks generalizing buffer with
  | nil => rfl
  | cons said rest ih =>
      have received : (buffer.receive said.toChunk).text = said.bytes := by
        rw [CharArray.receive_text, cstr_of_no_nul said.noNul]
      have saved : savedText username ((buffer.receive said.toChunk).array ++
          (buffer.receive said.toChunk).behind) = line username said :=
        congrArg (username ++ ascii ": " ++ ·) received
      have clean : (0 : Byte) ∉ snprintf 1024 (line username said) :=
        snprintf_no_nul (line_no_nul noNul said)
      simp only [List.map_cons, chatLoop, Notice.text, saved, cstr_of_no_nul clean, ih]
      rfl

/-- The sizes decide: `full_msg` has room for 1023 bytes. -/
theorem live_lines_iff (noNul : (0 : Byte) ∉ username) (buffer : CharArray 1024)
    (chunks : List Said) :
    (chatLoop username buffer (chunks.map Said.toChunk)).map Round.live =
        chunks.map (line username) ↔
      ∀ said ∈ chunks, username.length + 2 + said.bytes.length ≤ 1023 := by
  rw [chat_loop_rounds noNul, List.map_map, List.map_inj_left]
  constructor
  case mp =>
    intro same said member
    have lengths := congrArg List.length (same said member)
    simp only [Function.comp_apply, List.length_take, line_length] at lengths
    omega
  case mpr =>
    intro fits said member
    apply List.take_of_length_le
    rw [line_length]
    exact fits said member

theorem logged_lines (noNul : (0 : Byte) ∉ username) (buffer : CharArray 1024)
    (chunks : List Said) :
    (chatLoop username buffer (chunks.map Said.toChunk)).map Round.logged =
      chunks.map (line username) := by
  rw [chat_loop_rounds noNul, List.map_map]
  rfl

end Rounds

/-- Live and logged text agree exactly when every message fits `full_msg`. -/
theorem same_text_iff (username : Username) (chunks : List Said) (buffer : CharArray 1024) :
    SameText username.text chunks
        (chatLoop username.text buffer (chunks.map Said.toChunk)) ↔
      ∀ said ∈ chunks, username.text.length + 2 + said.bytes.length ≤ 1023 := by
  constructor
  case mp =>
    intro same
    exact (live_lines_iff username.noNul buffer chunks).mp same.live
  case mpr =>
    intro fits
    have live := (live_lines_iff username.noNul buffer chunks).mpr fits
    have logged := logged_lines username.noNul buffer chunks
    refine ⟨live, logged, ?_⟩
    have clean : (0 : Byte) ∉ (chunks.map (line username.text)).flatten := by
      intro member
      obtain ⟨text, textMember, inside⟩ := List.mem_flatten.mp member
      obtain ⟨said, -, same⟩ := List.mem_map.mp textMember
      exact line_no_nul username.noNul said (same ▸ inside)
    rw [List.flatMap_def, List.flatMap_def, live, logged, replay_writes_flatten _ clean]

def longChunk : Said where
  bytes := List.replicate 1020 97
  positive := by
    rw [List.length_replicate]
    omega
  room := by
    rw [List.length_replicate]
    omega
  noNul := by
    intro member
    exact absurd (List.eq_of_mem_replicate member) (by decide)

/-- A name of ten bytes loses the end of the chunk. -/
theorem long_chunk_cut :
    ¬SameText (ascii "ferdinands") [longChunk]
      (chatLoop (ascii "ferdinands") (CharArray.zeroed 1024 []) [longChunk.toChunk]) := by
  intro same
  have fits := (live_lines_iff (by decide) _ [longChunk]).mp same.live longChunk
    (List.mem_singleton.mpr rfl)
  have size : longChunk.bytes.length = 1020 := List.length_replicate
  rw [size] at fits
  exact absurd fits (by decide)

end LinuxFff.LiveAndLogged
