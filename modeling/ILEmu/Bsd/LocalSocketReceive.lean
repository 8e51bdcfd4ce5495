import ILEmu.Foundation.Run
import ILEmu.Foundation.Codec

/-! Reading a local stream socket: payload bytes in order, with the ancillary records in between
at their offsets. -/
namespace ILEmu.Bsd.LocalSocketReceive
open Foundation

variable {α T σ : Type}

structure SocketAncillaryRecord (T : Type) where
  byteOffset : Nat
  transfers : T

/-- A call of one of the two callbacks, with the position at that time. A copy is also told
apart by the offset of the record that bounds it. -/
inductive Call (α T : Type) where
  | externalize (position : Nat) (record : SocketAncillaryRecord T) (error : Nat)
  | copy (position : Nat) (boundary : Option Nat) (bytes : List α) (offset : Nat) (copied : Bool)

structure Stream (α T σ : Type) where
  source : List α
  controls : List (SocketAncillaryRecord T)
  position : Nat
  context : σ
  calls : List (Call α T) := []

structure Callbacks (α T σ : Type) where
  copy : σ → List α → Nat → Bool × σ
  externalize : σ → T → Nat × σ

structure Result where
  ready : Bool := false
  error : Nat := 0
  transferred : Nat := 0
  deriving DecidableEq

namespace Stream

/-- The record at the position is externalized and leaves, whatever comes of it. -/
def takeControl (callbacks : Callbacks α T σ) (stream : Stream α T σ) : Nat × Stream α T σ :=
  match stream.controls with
  | [] => (0, stream)
  | record :: rest =>
    if record.byteOffset = stream.position then
      let (error, context) := callbacks.externalize stream.context record.transfers
      (error, { stream with
        controls := rest
        context
        calls := stream.calls ++ [.externalize stream.position record error] })
    else (0, stream)

/-- A chunk ends before the next record. A record that is behind would not bound it: the
difference of its offset wraps. -/
def chunk (stream : Stream α T σ) (remaining : Nat) : Nat :=
  match stream.controls with
  | [] => remaining
  | record :: _ =>
    if stream.position ≤ record.byteOffset then min remaining (record.byteOffset - stream.position)
    else remaining

def boundary (stream : Stream α T σ) : Option Nat := stream.controls.head?.map (·.byteOffset)

def copyChunk (callbacks : Callbacks α T σ) (bytes : List α) (offset : Nat)
    (stream : Stream α T σ) : Bool × Stream α T σ :=
  let (copied, context) := callbacks.copy stream.context bytes offset
  (copied, { stream with
    context
    calls := stream.calls ++ [.copy stream.position stream.boundary bytes offset copied] })

@[simp] theorem copyChunk_source (callbacks : Callbacks α T σ) (bytes : List α) (offset : Nat)
    (stream : Stream α T σ) : (stream.copyChunk callbacks bytes offset).2.source = stream.source :=
  rfl

@[simp] theorem copyChunk_controls (callbacks : Callbacks α T σ) (bytes : List α) (offset : Nat)
    (stream : Stream α T σ) :
    (stream.copyChunk callbacks bytes offset).2.controls = stream.controls := rfl

@[simp] theorem copyChunk_position (callbacks : Callbacks α T σ) (bytes : List α) (offset : Nat)
    (stream : Stream α T σ) :
    (stream.copyChunk callbacks bytes offset).2.position = stream.position := rfl

@[simp] theorem copyChunk_calls (callbacks : Callbacks α T σ) (bytes : List α) (offset : Nat)
    (stream : Stream α T σ) :
    (stream.copyChunk callbacks bytes offset).2.calls = stream.calls ++
      [.copy stream.position stream.boundary bytes offset
        (stream.copyChunk callbacks bytes offset).1] := rfl

def removeFront (count : Nat) (stream : Stream α T σ) : Stream α T σ :=
  { stream with source := stream.source.drop count, position := stream.position + count }

@[simp] theorem takeControl_source (callbacks : Callbacks α T σ) (stream : Stream α T σ) :
    (stream.takeControl callbacks).2.source = stream.source := by
  unfold takeControl
  split
  · rfl
  · split <;> rfl

theorem takeControl_controls (callbacks : Callbacks α T σ) (stream : Stream α T σ) :
    (stream.takeControl callbacks).2.controls.length ≤ stream.controls.length := by
  unfold takeControl
  split
  · exact le_rfl
  · rename_i record rest controls
    split
    · rw [controls]
      exact Nat.le_succ _
    · exact le_rfl

/-- Where nothing is left for a chunk before the next record, a record has just been taken. -/
theorem takeControl_progress (callbacks : Callbacks α T σ) (stream : Stream α T σ)
    {remaining : Nat} (some_ : 0 < remaining)
    (empty : (stream.takeControl callbacks).2.chunk remaining = 0) :
    (stream.takeControl callbacks).2.controls.length < stream.controls.length := by
  unfold takeControl at empty ⊢
  split at empty
  · rename_i controls
    simp only [chunk, controls] at empty
    omega
  · rename_i record rest controls
    split at empty
    · rename_i here
      simp only [controls, here, if_true, List.length_cons]
      exact Nat.lt_succ_self _
    · rename_i away
      simp only [chunk, controls] at empty
      split at empty <;> omega

/-- The loop of one read, over the bytes that were in the source when it began. -/
def readChunks (callbacks : Callbacks α T σ) (bytes : List α) (total : Nat)
    (stream : Stream α T σ) : Result × Stream α T σ :=
  let taken := stream.takeControl callbacks
  if taken.1 ≠ 0 then (⟨true, taken.1, total⟩, taken.2)
  else
    let count := taken.2.chunk (bytes.length - total)
    let copied := taken.2.copyChunk callbacks ((bytes.drop total).take count) total
    if copied.1 then
      if total + count < bytes.length then
        readChunks callbacks bytes (total + count) (copied.2.removeFront count)
      else (⟨true, 0, total + count⟩, copied.2.removeFront count)
    else (⟨true, 14, total⟩, copied.2) -- EFAULT; the chunk stays queued
termination_by stream.controls.length + (bytes.length - total)
decreasing_by
  rename_i more
  have fewer : taken.2.controls.length ≤ stream.controls.length :=
    takeControl_controls callbacks stream
  change taken.2.controls.length + (bytes.length - (total + count)) < _
  by_cases empty : count = 0
  · have remaining : 0 < bytes.length - total := by
      clear_value count
      omega
    have progress : taken.2.controls.length < stream.controls.length :=
      takeControl_progress callbacks stream remaining empty
    clear_value count taken
    omega
  · clear_value count taken
    omega

/-- The records that are behind the position are dropped. -/
def dropStale (stream : Stream α T σ) : Stream α T σ :=
  { stream with
    controls := stream.controls.dropWhile fun record => record.byteOffset < stream.position }

def controlReady (stream : Stream α T σ) : Bool :=
  (stream.controls.head?).any fun record => record.byteOffset = stream.position

def read (callbacks : Callbacks α T σ) (capacity : Nat) (endOfStream : Bool)
    (stream : Stream α T σ) : Result × Stream α T σ :=
  let stream := stream.dropStale
  if stream.source.isEmpty && !endOfStream && !stream.controlReady then ({}, stream)
  else stream.readChunks callbacks (stream.source.take (min capacity stream.source.length)) 0

/-- What `sendmsg` appends: bytes, and a record at the offset of the first of them. -/
def append (bytes : List α) (transfers : Option T) (stream : Stream α T σ) : Stream α T σ :=
  let offset := stream.position + stream.source.length
  { stream with
    source := stream.source ++ bytes
    controls := stream.controls ++ (transfers.map (⟨offset, ·⟩)).toList }

end Stream

inductive Action (α T σ : Type) where
  | append (bytes : List α) (transfers : Option T)
  | read (callbacks : Callbacks α T σ) (capacity : Nat) (endOfStream : Bool)

def step (stream : Stream α T σ) : Action α T σ → Stream α T σ
  | .append bytes transfers => stream.append bytes transfers
  | .read callbacks capacity endOfStream => (stream.read callbacks capacity endOfStream).2

/-! The externalization of descriptors, which the callbacks of a socket call. -/

/-- The control output of one receive. -/
structure SocketRightsControl where
  imported : Nat := 0
  bytes : Bytes := []
  ends : List Nat := []
  deriving DecidableEq

namespace SocketRightsControl

def iphoneOs1 : Nat := 1
def optionLevel : Nat := 0xffff
def messageControlTruncated : Nat := 0x20

/-- The generation of the guest decides whether rights that nobody asked for are imported. -/
def externalizes (version : Nat) (requested : Bool) : Bool :=
  requested || (version ≠ iphoneOs1 && iphoneOs1 ≤ version)

def appendWord (word : Nat) (control : SocketRightsControl) : SocketRightsControl :=
  { control with bytes := control.bytes ++ littleEndian 4 word }

def begin_ (descriptors : Nat) (control : SocketRightsControl) : SocketRightsControl :=
  let ends := control.ends ++ [control.bytes.length + 12 + descriptors * 4]
  (({ control with ends }.appendWord (12 + descriptors * 4)).appendWord optionLevel).appendWord 1

/-- The transfers are imported one by one, up to one that is refused. -/
def importAll (importOne : σ → T → Option Nat × σ) (requested : Bool) :
    List T → SocketRightsControl × σ → Nat × SocketRightsControl × σ
  | [], state => (0, state)
  | transfer :: rest, (control, context) =>
    match importOne context transfer with
    | (none, context) => (40, control, context)
    | (some descriptor, context) =>
      let control := if requested then control.appendWord descriptor else control
      importAll importOne requested rest ({ control with imported := control.imported + 1 }, context)

/-- The free descriptors below the limit, counted no further than they are needed. -/
def free (available : σ → Nat → Bool) (limit needed : Nat) (context : σ) : Nat :=
  min needed (((List.range limit).drop 3).countP (available context))

def externalize (version : Nat) (requested : Bool) (limit : Nat) (available : σ → Nat → Bool)
    (importOne : σ → T → Option Nat × σ) (transfers : List T) (state : SocketRightsControl × σ) :
    Nat × SocketRightsControl × σ :=
  if externalizes version requested then
    if free available limit transfers.length state.2 < transfers.length then (40, state)
    else
      let control := if requested then state.1.begin_ transfers.length else state.1
      importAll importOne requested transfers (control, state.2)
  else (0, state)

/-- What `recvmsg` says of a control buffer of a capacity. -/
def flags (capacity : Nat) (control : SocketRightsControl) : Nat :=
  if capacity ≠ 0 ∧ capacity < control.bytes.length ∧ capacity ∉ control.ends then
    messageControlTruncated
  else 0

end SocketRightsControl

/-- The callbacks of a receive that copies by a function and externalizes descriptors. -/
def rightsCallbacks (version : Nat) (requested : Bool) (limit : Nat) (available : σ → Nat → Bool)
    (importOne : σ → T → Option Nat × σ) (copy : σ → List α → Nat → Bool × σ) :
    Callbacks α (List T) (SocketRightsControl × σ) where
  copy state bytes offset :=
    let (copied, context) := copy state.2 bytes offset
    (copied, state.1, context)
  externalize state transfers :=
    SocketRightsControl.externalize version requested limit available importOne transfers state

/-! What the calls of a stream have come to. -/

/-- The bytes that a call has handed out. -/
def Call.delivered : Call α T → List α
  | .copy _ _ bytes _ copied => if copied then bytes else []
  | .externalize .. => []

def Call.record : Call α T → Option (SocketAncillaryRecord T)
  | .externalize _ record _ => some record
  | .copy .. => none

def delivered (calls : List (Call α T)) : List α := calls.flatMap Call.delivered

def externalized (calls : List (Call α T)) : List (SocketAncillaryRecord T) :=
  calls.filterMap Call.record

theorem delivered_concat (calls : List (Call α T)) (call : Call α T) :
    delivered (calls ++ [call]) = delivered calls ++ call.delivered := by
  rw [delivered, List.flatMap_append, List.flatMap_singleton]
  rfl

theorem externalized_concat (calls : List (Call α T)) (call : Call α T) :
    externalized (calls ++ [call]) = externalized calls ++ call.record.toList := by
  unfold externalized
  rw [List.filterMap_append]
  cases call <;> rfl

/-- A record is due at its offset, a chunk up to the offset of the next record. -/
def Call.Due (position : Nat) : Call α T → Prop
  | .externalize known record _ => known = position ∧ record.byteOffset = position
  | .copy known boundary bytes _ _ =>
    known = position ∧ ∀ offset ∈ boundary, position + bytes.length ≤ offset

/-- Every call is due at the number of bytes that have been delivered before it. -/
def Sound (start : Nat) (calls : List (Call α T)) : Prop :=
  ∀ before call after, calls = before ++ call :: after →
    call.Due (start + (delivered before).length)

theorem Sound.concat {start : Nat} {calls : List (Call α T)} {call : Call α T}
    (sound : Sound start calls) (due : call.Due (start + (delivered calls).length)) :
    Sound start (calls ++ [call]) := by
  intro before other after same
  obtain ⟨rest, rfl, tail⟩ | ⟨rest, rfl, tail⟩ := List.append_eq_append_iff.mp same
  · cases rest with
    | nil =>
      rw [List.nil_append] at tail
      obtain ⟨rfl, _⟩ := List.cons.inj tail
      rw [List.append_nil]
      exact due
    | cons first rest =>
      have short := congrArg List.length tail
      simp at short
  · cases rest with
    | nil =>
      rw [List.nil_append] at tail
      obtain ⟨rfl, _⟩ := List.cons.inj tail
      rw [List.append_nil] at due
      exact due
    | cons first rest =>
      obtain ⟨rfl, _⟩ := List.cons.inj tail
      exact sound before other rest rfl

/-- The bytes and the records that a stream has been given are those that it has handed out
and, after them, those that it holds. -/
structure Account (start : Nat) (bytes : List α) (records : List (SocketAncillaryRecord T))
    (stream : Stream α T σ) : Prop where
  bytes : delivered stream.calls ++ stream.source = bytes
  records : externalized stream.calls ++ stream.controls = records
  position : stream.position = start + (delivered stream.calls).length
  sorted : (stream.controls.map (·.byteOffset)).Pairwise (· ≤ ·)
  within : ∀ record ∈ stream.controls,
    stream.position ≤ record.byteOffset ∧
      record.byteOffset ≤ stream.position + stream.source.length
  sound : Sound start stream.calls

namespace Account
variable {start : Nat} {bytes : List α} {records : List (SocketAncillaryRecord T)}
  {stream : Stream α T σ}

theorem takeControl (account : Account start bytes records stream)
    (callbacks : Callbacks α T σ) :
    Account start bytes records (stream.takeControl callbacks).2 := by
  unfold Stream.takeControl
  split
  · exact account
  rename_i record rest controls
  split
  case isFalse => exact account
  rename_i here
  obtain ⟨total, all, position, sorted, within, sound⟩ := account
  rw [controls] at all sorted within
  refine ⟨?_, ?_, ?_, (List.pairwise_cons.mp sorted).2,
    fun other member => within other (List.mem_cons_of_mem _ member), sound.concat ?_⟩
  · rw [delivered_concat, Call.delivered, List.append_nil]
    exact total
  · rw [externalized_concat, List.append_assoc]
    exact all
  · rw [delivered_concat, Call.delivered, List.append_nil]
    exact position
  · exact ⟨position, here.trans position⟩

theorem chunk_le (account : Account start bytes records stream) (remaining : Nat) :
    stream.chunk remaining ≤ remaining ∧
      ∀ record ∈ stream.controls, stream.position + stream.chunk remaining ≤ record.byteOffset := by
  have within := account.within
  have sorted := account.sorted
  unfold Stream.chunk
  split
  · rename_i controls
    exact ⟨le_rfl, by simp [controls]⟩
  · rename_i first rest controls
    rw [controls] at within sorted
    have ahead := (within first List.mem_cons_self).1
    rw [if_pos ahead, controls]
    refine ⟨min_le_left _ _, fun record member => ?_⟩
    have least : first.byteOffset ≤ record.byteOffset := by
      obtain rfl | later := List.mem_cons.mp member
      · exact le_rfl
      · exact (List.pairwise_cons.mp sorted).1 _ (List.mem_map_of_mem later)
    omega

theorem copy_due (account : Account start bytes records stream) {remaining offset : Nat}
    {chunk : List α} (length : chunk.length = stream.chunk remaining) (copied : Bool) :
    (Call.copy (T := T) stream.position stream.boundary chunk offset copied).Due
      (start + (delivered stream.calls).length) := by
  refine ⟨account.position, fun end_ member => ?_⟩
  obtain ⟨record, first, rfl⟩ := Option.map_eq_some_iff.mp member
  rw [length, ← account.position]
  exact (account.chunk_le remaining).2 record (List.mem_of_mem_head? first)

/-- A chunk that is not copied stays at the front of the source. -/
theorem refused (account : Account start bytes records stream) {callbacks : Callbacks α T σ}
    {remaining offset : Nat} {chunk : List α} (length : chunk.length = stream.chunk remaining)
    (failed : (stream.copyChunk callbacks chunk offset).1 = false) :
    Account start bytes records (stream.copyChunk callbacks chunk offset).2 := by
  have none_ : delivered (stream.copyChunk callbacks chunk offset).2.calls =
      delivered stream.calls := by
    rw [Stream.copyChunk_calls, delivered_concat, failed]
    exact List.append_nil _
  have same : externalized (stream.copyChunk callbacks chunk offset).2.calls =
      externalized stream.calls := by
    rw [Stream.copyChunk_calls, externalized_concat]
    exact List.append_nil _
  refine ⟨none_ ▸ account.bytes, same ▸ account.records, none_ ▸ account.position, account.sorted,
    account.within, ?_⟩
  rw [Stream.copyChunk_calls]
  exact account.sound.concat (account.copy_due length _)

/-- A chunk that is copied leaves the source. -/
theorem copied (account : Account start bytes records stream) {callbacks : Callbacks α T σ}
    {remaining offset : Nat} {chunk : List α}
    (front : chunk = stream.source.take (stream.chunk remaining))
    (length : chunk.length = stream.chunk remaining)
    (done : (stream.copyChunk callbacks chunk offset).1 = true) :
    Account start bytes records
      ((stream.copyChunk callbacks chunk offset).2.removeFront (stream.chunk remaining)) := by
  have more : delivered ((stream.copyChunk callbacks chunk offset).2.removeFront
      (stream.chunk remaining)).calls = delivered stream.calls ++ chunk := by
    change delivered (stream.copyChunk callbacks chunk offset).2.calls = _
    rw [Stream.copyChunk_calls, delivered_concat, done]
    rfl
  have same : externalized ((stream.copyChunk callbacks chunk offset).2.removeFront
      (stream.chunk remaining)).calls = externalized stream.calls := by
    change externalized (stream.copyChunk callbacks chunk offset).2.calls = _
    rw [Stream.copyChunk_calls, externalized_concat]
    exact List.append_nil _
  refine ⟨?_, same ▸ account.records, ?_, account.sorted, fun record member => ⟨?_, ?_⟩, ?_⟩
  · rw [more, List.append_assoc, front]
    exact (congrArg _ (List.take_append_drop _ _)).trans account.bytes
  · rw [more, List.length_append, length, ← Nat.add_assoc, ← account.position]
    rfl
  · exact (account.chunk_le remaining).2 record member
  · have upper := (account.within record member).2
    change _ ≤ stream.position + stream.chunk remaining +
      (stream.source.drop (stream.chunk remaining)).length
    rw [List.length_drop]
    omega
  · change Sound start (stream.copyChunk callbacks chunk offset).2.calls
    rw [Stream.copyChunk_calls]
    exact account.sound.concat (account.copy_due length _)

theorem chunk_front (account : Account start bytes records stream) {snapshot : List α} {total : Nat}
    (ahead : snapshot.drop total <+: stream.source) :
    (snapshot.drop total).take (stream.chunk (snapshot.length - total)) =
        stream.source.take (stream.chunk (snapshot.length - total)) ∧
      ((snapshot.drop total).take (stream.chunk (snapshot.length - total))).length =
        stream.chunk (snapshot.length - total) := by
  have few : stream.chunk (snapshot.length - total) ≤ (snapshot.drop total).length := by
    rw [List.length_drop]
    exact (account.chunk_le _).1
  refine ⟨?_, List.length_take_of_le few⟩
  obtain ⟨rest, same⟩ := ahead
  rw [← same, List.take_append_of_le_length few]

/-- A read hands out what is at the front, from the snapshot of its bytes that it has not
yet come to. -/
theorem readChunks {callbacks : Callbacks α T σ} {snapshot : List α} {total : Nat}
    (account : Account start bytes records stream)
    (ahead : snapshot.drop total <+: stream.source) :
    Account start bytes records (stream.readChunks callbacks snapshot total).2 := by
  fun_induction Stream.readChunks with
  | case1 total stream taken error => exact account.takeControl callbacks
  | case2 total stream taken fine count outcome done more ih =>
    have ready := account.takeControl callbacks
    have ahead : snapshot.drop total <+: taken.2.source := by
      rw [Stream.takeControl_source]
      exact ahead
    obtain ⟨front, length⟩ := ready.chunk_front ahead
    refine ih (ready.copied front length done) ?_
    have behind := ahead.drop count
    rw [List.drop_drop] at behind
    exact behind
  | case3 total stream taken fine count outcome done last =>
    have ready := account.takeControl callbacks
    have ahead : snapshot.drop total <+: taken.2.source := by
      rw [Stream.takeControl_source]
      exact ahead
    obtain ⟨front, length⟩ := ready.chunk_front ahead
    exact ready.copied front length done
  | case4 total stream taken fine count outcome failed =>
    have ready := account.takeControl callbacks
    have ahead : snapshot.drop total <+: taken.2.source := by
      rw [Stream.takeControl_source]
      exact ahead
    obtain ⟨front, length⟩ := ready.chunk_front ahead
    exact ready.refused length (Bool.eq_false_of_not_eq_true failed)

theorem dropStale (account : Account start bytes records stream) : stream.dropStale = stream := by
  have kept : stream.controls.dropWhile (fun record => record.byteOffset < stream.position) =
      stream.controls := by
    cases controls : stream.controls with
    | nil => rfl
    | cons record rest =>
      have within := (account.within record (by rw [controls]; exact List.mem_cons_self)).1
      rw [List.dropWhile_cons_of_neg]
      simpa using within
  unfold Stream.dropStale
  rw [kept]

theorem read (account : Account start bytes records stream) (callbacks : Callbacks α T σ)
    (capacity : Nat) (endOfStream : Bool) :
    Account start bytes records (stream.read callbacks capacity endOfStream).2 := by
  unfold Stream.read
  rw [account.dropStale]
  dsimp only
  split
  · exact account
  · exact account.readChunks (List.take_prefix _ _)

/-- What is appended comes after everything that has been given. -/
theorem append (account : Account start bytes records stream) (given : List α)
    (transfers : Option T) :
    Account start (bytes ++ given)
      (records ++ (transfers.map (⟨start + bytes.length, ·⟩)).toList)
      (stream.append given transfers) := by
  have offset : stream.position + stream.source.length = start + bytes.length := by
    rw [account.position, ← account.bytes, List.length_append, Nat.add_assoc]
  have within : ∀ record ∈ (stream.append given transfers).controls,
      record ∈ stream.controls ∨ record.byteOffset = stream.position + stream.source.length := by
    intro record member
    obtain before | added := List.mem_append.mp member
    · exact Or.inl before
    · obtain ⟨_, _, rfl⟩ := Option.map_eq_some_iff.mp (Option.mem_toList.mp added)
      exact Or.inr rfl
  refine ⟨?_, ?_, account.position, ?_, fun record member => ?_, account.sound⟩
  · rw [← account.bytes, List.append_assoc]
    rfl
  · rw [← account.records, ← offset, List.append_assoc]
    rfl
  · change ((stream.controls ++ _).map _).Pairwise _
    rw [List.map_append, List.pairwise_append]
    refine ⟨account.sorted, by cases transfers <;> simp, fun first before second added => ?_⟩
    obtain ⟨record, member, rfl⟩ := List.mem_map.mp before
    obtain ⟨other, member', rfl⟩ := List.mem_map.mp added
    obtain ⟨_, _, rfl⟩ := Option.map_eq_some_iff.mp (Option.mem_toList.mp member')
    exact (account.within record member).2
  · change stream.position ≤ record.byteOffset ∧
      record.byteOffset ≤ stream.position + (stream.source ++ given).length
    rw [List.length_append]
    obtain before | last := within record member
    · have bounds := account.within record before
      omega
    · omega

end Account

/-- What an action gives to the stream. -/
def given : Action α T σ → List α
  | .append bytes _ => bytes
  | .read .. => []

/-- The records of the actions, each at the number of bytes that were given before it. -/
def givenRecords : Nat → List (Action α T σ) → List (SocketAncillaryRecord T)
  | _, [] => []
  | offset, action :: rest =>
    (match action with
      | .append _ transfers => (transfers.map (⟨offset, ·⟩)).toList
      | .read .. => []) ++ givenRecords (offset + (given action).length) rest

theorem run_account {start : Nat} {bytes : List α} {records : List (SocketAncillaryRecord T)}
    {stream : Stream α T σ} (account : Account start bytes records stream)
    (actions : List (Action α T σ)) :
    Account start (bytes ++ actions.flatMap given)
      (records ++ givenRecords (start + bytes.length) actions) (run step stream actions) := by
  induction actions generalizing bytes records stream with
  | nil => simpa [givenRecords] using account
  | cons action rest ih =>
    cases action with
    | append more transfers =>
      have later := ih (account.append more transfers)
      simpa [givenRecords, given, step, Nat.add_assoc, List.append_assoc] using later
    | read callbacks capacity endOfStream =>
      have later := ih (account.read callbacks capacity endOfStream)
      simpa [givenRecords, given, step] using later

end ILEmu.Bsd.LocalSocketReceive
