import Mathlib.Tactic.Ring
import Mathlib.Data.List.Basic

/-! The control channel's wire format. `_send_buf_to_ds_app` frames a payload as the two
bytes of a `guint16` length (host order, low byte first) followed by the payload, and
`_read_message` reads a frame back through `_read_bytes`. A peer is the byte stream it
sent and the answers its `read` calls give; a buffer is the memory from its first byte
on, so a write past its end is visible. Loops run on explicit fuel: `none` means the loop
is still running. No `int` overflow of `sent_len` is modelled (it would take 2^31 failed
writes); the `guint` counter of `_read_bytes` wraps modulo 2^32. -/

namespace DeepStreamFpFilter.PromptFraming

/-- `MAX_PACKET_LEN`: the size of `msg` in `_server_task` and of the client's buffers. -/
def maxPacketLen : Nat := 4 * 1024

def toGuint (x : Int) : Nat := (x % 2 ^ 32).toNat

theorem toGuint_of_lt {x : Int} (nonneg : 0 ≤ x) (small : x < 2 ^ 32) :
    (toGuint x : Int) = x := by
  rw [toGuint, Int.emod_eq_of_lt nonneg small, Int.toNat_of_nonneg nonneg]

theorem toGuint_sub {n k : Nat} (le : k ≤ n) (small : n < 2 ^ 32) :
    toGuint ((n : Int) - k) = n - k := by
  have := toGuint_of_lt (show (0 : Int) ≤ n - k by omega) (by omega)
  omega

/-- `guint16 len = (guint16) buffer_len; memcpy (write_buffer, &len, 2)`. -/
def lenBytes (n : Nat) : List UInt8 := [UInt8.ofNat n, UInt8.ofNat (n / 256)]

/-- `memcpy (&len, len_buff, 2)`: the two length bytes read back as a `guint16`. -/
def decodeLen (lo hi : UInt8) : Nat := lo.toNat + 256 * hi.toNat

theorem toNat_ofNat (n : Nat) : (UInt8.ofNat n).toNat = n % 256 := by
  simp [UInt8.toNat, UInt8.ofNat, BitVec.toNat_ofNat]

theorem decodeLen_lt (lo hi : UInt8) : decodeLen lo hi < 65536 := by
  have := lo.toNat_lt_size; have := hi.toNat_lt_size
  simp only [decodeLen, UInt8.size] at *; omega

theorem decodeLen_lenBytes {n : Nat} (short : n < 65536) :
    decodeLen (UInt8.ofNat n) (UInt8.ofNat (n / 256)) = n := by
  simp only [decodeLen, toNat_ofNat]
  omega

def store (mem : Nat → UInt8) (off : Nat) (bytes : List UInt8) : Nat → UInt8 :=
  fun i => if off ≤ i then (bytes[i - off]?).getD (mem i) else mem i

@[simp] theorem store_nil (mem : Nat → UInt8) (off : Nat) : store mem off [] = mem := by
  funext i; simp [store]

theorem store_append (mem : Nat → UInt8) (off : Nat) (xs ys : List UInt8) :
    store (store mem off xs) (off + xs.length) ys = store mem off (xs ++ ys) := by
  funext i
  simp only [store]
  by_cases past : off + xs.length ≤ i
  · have inner : xs[i - off]? = none := List.getElem?_eq_none (by omega)
    have shift : i - off - xs.length = i - (off + xs.length) := by omega
    simp only [past, show off ≤ i by omega, if_true, inner, Option.getD_none,
      List.getElem?_append_right (show xs.length ≤ i - off by omega), shift]
  · rw [if_neg past]
    split
    · rw [List.getElem?_append_left (by omega)]
    · rfl

theorem store_getElem (mem : Nat → UInt8) (bytes : List UInt8) {i : Nat}
    (inside : i < bytes.length) :
    store mem 0 bytes i = bytes[i] := by
  simp [store, inside]

theorem store_beyond (mem : Nat → UInt8) (bytes : List UInt8) {i : Nat}
    (past : bytes.length ≤ i) :
    store mem 0 bytes i = mem i := by
  simp [store, List.getElem?_eq_none past]

/-- A peer connection as the server's `read` calls see it: the bytes the peer sent, and
the result of the `i`-th call, made after `pos` bytes were consumed and asking for
`count`: a byte count, `0` at end of stream or `-1` on error. -/
structure Peer where
  stream : List UInt8
  read : Nat → Nat → Nat → Int

structure Reader where
  len : Nat
  calls : Nat
  pos : Nat
  buffer : Nat → UInt8
  reach : Nat

/-- One iteration: `len += read (fd, buffer + len, read_len - len)`. -/
def readCall (peer : Peer) (readLen : Nat) (rd : Reader) : Reader :=
  let r := peer.read rd.calls rd.pos (readLen - rd.len)
  let got := (peer.stream.drop rd.pos).take r.toNat
  { len := toGuint (rd.len + r)
    calls := rd.calls + 1
    pos := rd.pos + got.length
    buffer := store rd.buffer rd.len got
    reach := if got = [] then rd.reach else max rd.reach (rd.len + got.length) }

/-- `_read_bytes (fd, read_len, buffer)` run for at most `fuel` loop tests. -/
def readBytes (peer : Peer) (readLen : Nat) : Nat → Reader → Option Reader
  | 0, _ => none
  | fuel + 1, rd =>
    if rd.len < readLen then readBytes peer readLen fuel (readCall peer readLen rd) else some rd

/-- `_read_message (fd, msg)`: the length it returns, and the connection and `msg` after it. -/
def readMessage (peer : Peer) (msg : Nat → UInt8) (fuel : Nat) : Option (Nat × Reader) := do
  let lenBuff ← readBytes peer 2 fuel ⟨0, 0, 0, fun _ => 0, 0⟩
  let len := decodeLen (lenBuff.buffer 0) (lenBuff.buffer 1)
  let body ← readBytes peer len fuel ⟨0, lenBuff.calls, lenBuff.pos, msg, 0⟩
  pure (len, body)

/-- A peer whose reads make progress while its stream still holds bytes: each returns
between one byte and the count asked for. -/
def Peer.Fair (peer : Peer) : Prop :=
  ∀ i pos count, pos < peer.stream.length → 0 < count →
    1 ≤ peer.read i pos count ∧ peer.read i pos count ≤ count

/-- A peer whose reads never fail: a fair read returns no more than the stream still
holds, and `0` once the stream is exhausted. -/
def Peer.Honest (peer : Peer) : Prop :=
  ∀ i pos count, 0 < count →
    (pos < peer.stream.length →
      1 ≤ peer.read i pos count ∧
        peer.read i pos count ≤ min count (peer.stream.length - pos)) ∧
    (peer.stream.length ≤ pos → peer.read i pos count = 0)

theorem Peer.Honest.fair {peer : Peer} (honest : peer.Honest) : peer.Fair := by
  intro i pos count inside positive
  obtain ⟨lo, hi⟩ := (honest i pos count positive).1 inside
  exact ⟨lo, hi.trans (by simp)⟩

theorem readCall_of_count {peer : Peer} {readLen : Nat} (small : readLen < 2 ^ 32) {rd : Reader}
    (below : rd.len ≤ readLen) {r : Nat}
    (answer : peer.read rd.calls rd.pos (readLen - rd.len) = r)
    (asked : r ≤ readLen - rd.len) (held : r ≤ peer.stream.length - rd.pos) :
    readCall peer readLen rd =
      { len := rd.len + r, calls := rd.calls + 1, pos := rd.pos + r
        buffer := store rd.buffer rd.len ((peer.stream.drop rd.pos).take r)
        reach := if r = 0 then rd.reach else max rd.reach (rd.len + r) } := by
  have got : ((peer.stream.drop rd.pos).take r).length = r := by
    simp only [List.length_take, List.length_drop]; omega
  have counter : toGuint (rd.len + r) = rd.len + r := by
    have := toGuint_of_lt (show (0 : Int) ≤ rd.len + r by omega) (by omega); omega
  simp only [readCall, answer, Int.toNat_ofNat, got, ← List.length_eq_zero, counter]

theorem readCall_fair {peer : Peer} (fair : peer.Fair) {readLen : Nat} (small : readLen < 2 ^ 32)
    {rd : Reader} (below : rd.len < readLen)
    (enough : rd.pos + (readLen - rd.len) ≤ peer.stream.length) :
    ∃ r, 0 < r ∧ r ≤ readLen - rd.len ∧ readCall peer readLen rd =
      { len := rd.len + r, calls := rd.calls + 1, pos := rd.pos + r
        buffer := store rd.buffer rd.len ((peer.stream.drop rd.pos).take r)
        reach := max rd.reach (rd.len + r) } := by
  obtain ⟨lo, hi⟩ := fair rd.calls rd.pos (readLen - rd.len) (by omega) (by omega)
  refine ⟨(peer.read rd.calls rd.pos (readLen - rd.len)).toNat, by omega, by omega, ?_⟩
  rw [readCall_of_count small below.le (Int.toNat_of_nonneg (by omega)).symm (by omega) (by omega),
    if_neg (by omega)]

theorem readCall_honest {peer : Peer} (honest : peer.Honest) {readLen : Nat}
    (small : readLen < 2 ^ 32) {rd : Reader} (below : rd.len < readLen)
    (inside : rd.pos ≤ peer.stream.length) :
    ∃ r, r ≤ readLen - rd.len ∧ rd.pos + r ≤ peer.stream.length ∧
      (rd.pos < peer.stream.length → 0 < r) ∧ readCall peer readLen rd =
      { len := rd.len + r, calls := rd.calls + 1, pos := rd.pos + r
        buffer := store rd.buffer rd.len ((peer.stream.drop rd.pos).take r)
        reach := if r = 0 then rd.reach else max rd.reach (rd.len + r) } := by
  obtain ⟨more, exhausted⟩ := honest rd.calls rd.pos (readLen - rd.len) (by omega)
  by_cases left : rd.pos < peer.stream.length
  · obtain ⟨lo, hi⟩ := more left
    refine ⟨(peer.read rd.calls rd.pos (readLen - rd.len)).toNat, by omega, by omega,
      fun _ => by omega, ?_⟩
    exact readCall_of_count small below.le (Int.toNat_of_nonneg (by omega)).symm (by omega)
      (by omega)
  · refine ⟨0, by omega, by omega, fun more => absurd more left, ?_⟩
    exact readCall_of_count small below.le (by rw [exhausted (by omega)]; rfl) (by omega) (by omega)

theorem readBytes_fill {peer : Peer} (fair : peer.Fair) (readLen : Nat) (small : readLen < 2 ^ 32)
    (fuel : Nat) : ∀ (rd : Reader), rd.len ≤ readLen →
      rd.pos + (readLen - rd.len) ≤ peer.stream.length → readLen - rd.len < fuel →
      ∃ calls, readBytes peer readLen fuel rd = some
        { len := readLen, calls, pos := rd.pos + (readLen - rd.len)
          buffer := store rd.buffer rd.len ((peer.stream.drop rd.pos).take (readLen - rd.len))
          reach := if rd.len < readLen then max rd.reach readLen else rd.reach } := by
  induction fuel with
  | zero => exact fun _ _ _ ample => absurd ample (Nat.not_lt_zero _)
  | succ fuel ih =>
    intro rd below enough ample
    by_cases done : rd.len < readLen
    · obtain ⟨r, positive, within, step⟩ := readCall_fair fair small done enough
      obtain ⟨calls, rest⟩ := ih (readCall peer readLen rd)
        (by rw [step]; dsimp only; omega) (by rw [step]; dsimp only; omega)
        (by rw [step]; dsimp only; omega)
      refine ⟨calls, ?_⟩
      rw [readBytes, if_pos done, rest, step]
      have chunk : ((peer.stream.drop rd.pos).take r).length = r := by
        simp only [List.length_take, List.length_drop]; omega
      have buffer : store (store rd.buffer rd.len ((peer.stream.drop rd.pos).take r)) (rd.len + r)
          ((peer.stream.drop (rd.pos + r)).take (readLen - (rd.len + r))) =
          store rd.buffer rd.len ((peer.stream.drop rd.pos).take (readLen - rd.len)) := by
        rw [show readLen - rd.len = r + (readLen - (rd.len + r)) by omega, List.take_add,
          ← store_append, chunk, List.drop_drop]
      have reach : (if rd.len + r < readLen then max (max rd.reach (rd.len + r)) readLen
          else max rd.reach (rd.len + r)) = max rd.reach readLen := by
        split <;> omega
      simp only [buffer, reach, if_pos done, show rd.pos + r + (readLen - (rd.len + r)) =
        rd.pos + (readLen - rd.len) by omega]
    · have full : rd.len = readLen := by omega
      refine ⟨rd.calls, ?_⟩
      rw [readBytes, if_neg done]
      simp only [← full, Nat.sub_self, Nat.add_zero, List.take_zero, store_nil, lt_irrefl,
        if_false]

theorem readMessage_whole {peer : Peer} (fair : peer.Fair) {lo hi : UInt8}
    {payload rest : List UInt8} (sent : peer.stream = lo :: hi :: (payload ++ rest))
    (sized : payload.length = decodeLen lo hi) (msg : Nat → UInt8) {fuel : Nat}
    (ample : payload.length + 3 ≤ fuel) :
    ∃ body, readMessage peer msg fuel = some (payload.length, body) ∧
      body.pos = 2 + payload.length ∧ body.buffer = store msg 0 payload ∧
      body.reach = payload.length := by
  have long : 2 + payload.length ≤ peer.stream.length := by simp [sent]; omega
  obtain ⟨calls, prefixRead⟩ :=
    readBytes_fill fair 2 (by omega) fuel ⟨0, 0, 0, fun _ => 0, 0⟩
    (by simp) (by dsimp only; omega) (by dsimp only; omega)
  have decoded : decodeLen (store (fun _ => 0) 0 ((peer.stream.drop 0).take (2 - 0)) 0)
      (store (fun _ => 0) 0 ((peer.stream.drop 0).take (2 - 0)) 1) = payload.length := by
    simp [sent, store, sized]
  obtain ⟨calls', bodyRead⟩ :=
    readBytes_fill fair (decodeLen lo hi) ((decodeLen_lt lo hi).trans (by omega))
    fuel ⟨0, calls, 2, msg, 0⟩ (by simp) (by dsimp only; omega) (by dsimp only; omega)
  rw [← sized] at bodyRead
  simp only [readMessage, prefixRead, Option.bind_eq_bind, Option.some_bind, decoded, bodyRead,
    Option.pure_def, Option.some.injEq, Prod.mk.injEq, true_and, exists_eq_left']
  refine ⟨by omega, by simp [sent], by split <;> omega⟩

theorem readBytes_stuck {peer : Peer} (honest : peer.Honest) (readLen : Nat)
    (small : readLen < 2 ^ 32) :
    ∀ (fuel : Nat) (rd : Reader), rd.len ≤ readLen → rd.pos ≤ peer.stream.length →
      peer.stream.length < rd.pos + (readLen - rd.len) → readBytes peer readLen fuel rd = none
  | 0, _, _, _, _ => rfl
  | fuel + 1, rd, _, inside, short => by
    have running : rd.len < readLen := by omega
    obtain ⟨r, asked, held, _, step⟩ := readCall_honest honest small running inside
    rw [readBytes, if_pos running]
    exact readBytes_stuck honest readLen small fuel _ (by rw [step]; dsimp only; omega)
      (by rw [step]; dsimp only; omega) (by rw [step]; dsimp only; omega)

def wholeFrame : List UInt8 → Bool
  | lo :: hi :: rest => decodeLen lo hi ≤ rest.length
  | _ => false

/-- `write_buffer` once the length and the payload are copied in. -/
def writeBuffer (buffer : List UInt8) : List UInt8 := lenBytes buffer.length ++ buffer

def byteAt (wb : List UInt8) (i : Int) : UInt8 := if 0 ≤ i then wb[i.toNat]?.getD 0 else 0

structure Sender where
  /-- `int sent_len` -/
  sentLen : Int
  calls : Nat
  wire : List UInt8

/-- One iteration: `sent_len += write (sock, write_buffer + sent_len, write_buffer_len - sent_len)`;
the `i`-th `write`, asked for `count` bytes, returns `write i count`. -/
def sendCall (write : Nat → Nat → Int) (wb : List UInt8) (s : Sender) : Sender :=
  let r := write s.calls (toGuint (wb.length - s.sentLen))
  { sentLen := s.sentLen + r
    calls := s.calls + 1
    wire := s.wire ++ (List.range r.toNat).map fun k : Nat => byteAt wb (s.sentLen + k) }

/-- `while (sent_len != write_buffer_len)` run for at most `fuel` loop tests. -/
def sendLoop (write : Nat → Nat → Int) (wb : List UInt8) : Nat → Sender → Option Sender
  | 0, _ => none
  | fuel + 1, s =>
    if s.sentLen = wb.length then some s else sendLoop write wb fuel (sendCall write wb s)

theorem range_map_byteAt (wb : List UInt8) {k n : Nat} (within : k + n ≤ wb.length) :
    (List.range n).map (fun j : Nat => byteAt wb ((k : Int) + j)) = (wb.drop k).take n := by
  apply List.ext_getElem (by simp; omega)
  intro j inRange _
  simp only [List.length_map, List.length_range] at inRange
  simp [byteAt, show (0 : Int) ≤ k + j by omega, show ((k : Int) + j).toNat = k + j by omega,
    List.getElem?_eq_getElem (by omega : k + j < wb.length)]

theorem sendLoop_all {write : Nat → Nat → Int}
    (chunkedWrites : ∀ i count, 0 < count → 1 ≤ write i count ∧ write i count ≤ count)
    (wb : List UInt8) (small : wb.length < 2 ^ 32) :
    ∀ (fuel k : Nat) (s : Sender), s.sentLen = k → k ≤ wb.length → s.wire = wb.take k →
      wb.length - k < fuel → ∃ calls, sendLoop write wb fuel s = some ⟨wb.length, calls, wb⟩
  | 0, _, _, _, _, _, ample => absurd ample (Nat.not_lt_zero _)
  | fuel + 1, k, s, sent, within, sofar, ample => by
    by_cases done : k = wb.length
    · refine ⟨s.calls, ?_⟩
      rw [sendLoop, if_pos (by omega)]
      cases s; subst done; simp_all
    · have count := toGuint_sub within small
      obtain ⟨lo, hi⟩ := chunkedWrites s.calls (wb.length - k) (by omega)
      set r := write s.calls (wb.length - k) with hr
      obtain ⟨calls, rest⟩ := sendLoop_all chunkedWrites wb small fuel (k + r.toNat)
        (sendCall write wb s) (by simp only [sendCall, sent, count, ← hr]; omega) (by omega)
        (by simp only [sendCall, sent, count, ← hr, sofar, range_map_byteAt wb
              (show k + r.toNat ≤ wb.length by omega), ← List.take_add])
        (by omega)
      exact ⟨calls, by rw [sendLoop, if_neg (by omega), rest]⟩

@[simp] theorem length_writeBuffer (buffer : List UInt8) :
    (writeBuffer buffer).length = buffer.length + 2 := by
  simp [writeBuffer, lenBytes]

/-- `fread (buffer, 1, MAX_PACKET_LEN - 1, file)` in `main`: the bytes handed to
`_send_buf_to_ds_app`. -/
def mainRead (file : List UInt8) : List UInt8 := file.take (maxPacketLen - 1)

def copyIndices (bufferLen : Nat) : List Int :=
  [0, 1] ++ (List.range bufferLen).map fun k : Nat => 2 + (k : Int)

def callIndices (write : Nat → Nat → Int) (wb : List UInt8) (s : Sender) : List Int :=
  (List.range (write s.calls (toGuint (wb.length - s.sentLen))).toNat).map
    fun k : Nat => s.sentLen + k

def sendIndices (write : Nat → Nat → Int) (wb : List UInt8) : Nat → Sender → List Int
  | 0, _ => []
  | fuel + 1, s =>
    if s.sentLen = wb.length then []
    else callIndices write wb s ++ sendIndices write wb fuel (sendCall write wb s)

theorem sendIndices_within {write : Nat → Nat → Int}
    (chunkedWrites : ∀ i count, 0 < count → 1 ≤ write i count ∧ write i count ≤ count)
    (wb : List UInt8) (small : wb.length < 2 ^ 32) :
    ∀ (fuel k : Nat) (s : Sender), s.sentLen = k → k ≤ wb.length →
      ∀ i ∈ sendIndices write wb fuel s, (k : Int) ≤ i ∧ i < wb.length
  | 0, _, _, _, _, i, mem => absurd mem (List.not_mem_nil i)
  | fuel + 1, k, s, sent, within, i, mem => by
    rw [sendIndices] at mem
    split at mem
    · exact absurd mem (List.not_mem_nil i)
    · have count := toGuint_sub within small
      obtain ⟨lo, hi⟩ := chunkedWrites s.calls (wb.length - k) (by omega)
      simp only [callIndices, sent, count, List.mem_append, List.mem_map, List.mem_range] at mem
      rcases mem with ⟨j, taken, rfl⟩ | later
      · omega
      · have := sendIndices_within chunkedWrites wb small fuel
          (k + (write s.calls (wb.length - k)).toNat) (sendCall write wb s)
          (by simp only [sendCall, sent, count]; omega) (by omega) i later
        omega

theorem client_in_bounds (file : List UInt8) (fits : (mainRead file).length ≤ maxPacketLen - 2)
    {write : Nat → Nat → Int}
    (chunkedWrites : ∀ i count, 0 < count → 1 ≤ write i count ∧ write i count ≤ count)
    (fuel : Nat) :
    ∀ i ∈ copyIndices (mainRead file).length ++
      sendIndices write (writeBuffer (mainRead file)) fuel ⟨0, 0, []⟩,
      0 ≤ i ∧ i < maxPacketLen := by
  simp only [maxPacketLen] at fits ⊢
  intro i mem
  rcases List.mem_append.1 mem with copied | sent
  · simp only [copyIndices, List.mem_append, List.mem_cons, List.not_mem_nil, or_false,
      List.mem_map, List.mem_range] at copied
    obtain (rfl | rfl) | ⟨k, below, rfl⟩ := copied <;> omega
  · have := sendIndices_within chunkedWrites _ (by simp; omega) fuel 0 _ rfl (Nat.zero_le _) i sent
    simp only [length_writeBuffer] at this
    omega

theorem client_in_bounds_two_bytes :
    (mainRead [65, 66]).length ≤ maxPacketLen - 2 ∧
      ∀ i ∈ copyIndices (mainRead [65, 66]).length ++
        sendIndices (fun _ count => count) (writeBuffer (mainRead [65, 66])) 4 ⟨0, 0, []⟩,
        0 ≤ i ∧ i < maxPacketLen :=
  ⟨by decide, client_in_bounds [65, 66] (by decide)
    (fun _ count positive => ⟨by omega, le_rfl⟩) 4⟩

theorem sendLoop_failing (wb : List UInt8) :
    ∀ (fuel : Nat) (s : Sender), s.sentLen < wb.length →
      sendLoop (fun _ _ => -1) wb fuel s = none
  | 0, _, _ => rfl
  | fuel + 1, s, below => by
    rw [sendLoop, if_neg (by omega)]
    exact sendLoop_failing wb fuel _ (by simp only [sendCall]; omega)

/-- A file of 4095 bytes, which `main` admits, makes the payload `memcpy` write
`write_buffer[4096]`, one past the end. A `write` that fails once and then takes all it is
given reads `write_buffer[-1]` and puts one byte too many on the wire. Writes that always
fail keep the loop running for ever, whatever the file. -/
theorem client_bounds_failing_input :
    (maxPacketLen : Int) ∈ copyIndices (mainRead (List.replicate 4095 65)).length ∧
    sendLoop (fun i count => if i = 0 then -1 else (count : Int)) (writeBuffer [65]) 3
        ⟨0, 0, []⟩ = some ⟨3, 2, [0, 1, 0, 65]⟩ ∧
      (-1 : Int) ∈ sendIndices (fun i count => if i = 0 then -1 else (count : Int))
        (writeBuffer [65]) 3 ⟨0, 0, []⟩ ∧
    ∀ (file : List UInt8) (fuel : Nat),
      sendLoop (fun _ _ => -1) (writeBuffer (mainRead file)) fuel ⟨0, 0, []⟩ = none := by
  refine ⟨?_, rfl, by decide, fun file fuel => sendLoop_failing _ fuel _ (by simp; omega)⟩
  simp only [copyIndices, mainRead, List.length_take, List.length_replicate, maxPacketLen,
    List.mem_append, List.mem_map, List.mem_range]
  exact .inr ⟨4094, by omega, rfl⟩

def greedyReads (stream : List UInt8) : Nat → Nat → Nat → Int :=
  fun _ pos count => ((min count (stream.length - pos) : Nat) : Int)

theorem greedyReads_honest (stream : List UInt8) :
    Peer.Honest ⟨stream, greedyReads stream⟩ := by
  intro _ pos count positive
  simp only [greedyReads]
  omega

theorem readBytes_more {peer : Peer} {readLen : Nat} :
    ∀ {fuel : Nat} {rd out : Reader}, readBytes peer readLen fuel rd = some out →
      readBytes peer readLen (fuel + 1) rd = some out
  | 0, _, _, stopped => nomatch stopped
  | fuel + 1, rd, out, stopped => by
    rw [readBytes] at stopped ⊢
    split at stopped
    · rw [if_pos ‹_›]; exact readBytes_more stopped
    · rw [if_neg ‹_›]; exact stopped

theorem readBytes_mono {peer : Peer} {readLen fuel : Nat} {rd out : Reader}
    (stopped : readBytes peer readLen fuel rd = some out) :
    ∀ extra, readBytes peer readLen (fuel + extra) rd = some out
  | 0 => stopped
  | extra + 1 => readBytes_more (readBytes_mono stopped extra)

theorem fullReads_fair (stream : List UInt8) : Peer.Fair ⟨stream, fun _ _ count => count⟩ :=
  fun _ _ count _ positive => ⟨show (1 : Int) ≤ count by omega, le_rfl⟩

theorem map_store_zero (payload : List UInt8) :
    (List.range payload.length).map (store (fun _ => 0) 0 payload) = payload :=
  List.ext_getElem (by simp) fun i inRange _ => by
    simp only [List.getElem_map, List.getElem_range]
    exact store_getElem _ _ (by simpa using inRange)

theorem frame_round_trip (payload : List UInt8) (short : payload.length ≤ maxPacketLen - 2)
    (write : Nat → Nat → Int)
    (chunkedWrites : ∀ i count, 0 < count → 1 ≤ write i count ∧ write i count ≤ count)
    (read : Nat → Nat → Nat → Int)
    (chunkedReads : ∀ i pos count, 0 < count →
      1 ≤ read i pos count ∧ read i pos count ≤ count)
    (fuel : Nat) (ample : payload.length + 3 ≤ fuel) :
    ∃ sent, sendLoop write (writeBuffer payload) fuel ⟨0, 0, []⟩ = some sent ∧
      sent.wire = writeBuffer payload ∧
      ∃ body,
        readMessage ⟨sent.wire, read⟩ (fun _ => 0) fuel = some (payload.length, body) ∧
        body.pos = sent.wire.length ∧ (List.range payload.length).map body.buffer = payload ∧
        body.buffer payload.length = 0 := by
  have framed : writeBuffer payload =
      UInt8.ofNat payload.length :: UInt8.ofNat (payload.length / 256) :: (payload ++ []) := by
    simp [writeBuffer, lenBytes]
  have short' : payload.length < 65536 := by simp only [maxPacketLen] at short; omega
  obtain ⟨calls, sending⟩ := sendLoop_all chunkedWrites (writeBuffer payload)
    (by simp [framed]; omega) fuel 0 ⟨0, 0, []⟩ rfl (Nat.zero_le _) (by simp)
    (by simp [framed]; omega)
  refine ⟨_, sending, rfl, ?_⟩
  obtain ⟨body, reading, consumed, stored, -⟩ := readMessage_whole
    (show Peer.Fair ⟨writeBuffer payload, read⟩ from
      fun i pos count _ positive => chunkedReads i pos count positive)
    framed (decodeLen_lenBytes short').symm (fun _ => 0) ample
  refine ⟨body, reading, by simp [consumed, framed]; omega, by rw [stored, map_store_zero], ?_⟩
  rw [stored, store_beyond _ _ le_rfl]

theorem frame_round_trip_two_bytes :
    ∃ sent, sendLoop (fun _ _ => 1) (writeBuffer [7, 8]) 5 ⟨0, 0, []⟩ = some sent ∧
      sent.wire = writeBuffer [7, 8] ∧
      ∃ body, readMessage ⟨sent.wire, fun _ _ _ => 1⟩ (fun _ => 0) 5 = some (2, body) ∧
        body.pos = sent.wire.length ∧ (List.range 2).map body.buffer = [7, 8] ∧
        body.buffer 2 = 0 :=
  frame_round_trip [7, 8] (by decide) (fun _ _ => 1)
    (fun _ count positive => ⟨le_rfl, show (1 : Int) ≤ count by omega⟩)
    (fun _ _ _ => 1) (fun _ _ count positive => ⟨le_rfl, show (1 : Int) ≤ count by omega⟩) 5
    (by decide)

/-- The server trusts the peer's length prefix. A frame of 4097 payload bytes makes
`_read_bytes` write past the 4096 bytes of `msg`, and one of exactly 4096 non-zero bytes
leaves `msg` with no terminating zero for the `g_print` of `handle_usr_prompt`. -/
theorem msg_bounds_failing_input :
    (∃ body, readMessage ⟨lenBytes 4097 ++ List.replicate 4097 65, fun _ _ count => count⟩
        (fun _ => 0) 4100 = some (4097, body) ∧ maxPacketLen < body.reach) ∧
    (∃ body, readMessage ⟨lenBytes 4096 ++ List.replicate 4096 65, fun _ _ count => count⟩
        (fun _ => 0) 4099 = some (4096, body) ∧ ∀ i < maxPacketLen, body.buffer i ≠ 0) := by
  constructor
  · obtain ⟨body, reading, -, -, reach⟩ := readMessage_whole (fullReads_fair _)
      (show lenBytes 4097 ++ List.replicate 4097 65 =
        UInt8.ofNat 4097 :: UInt8.ofNat (4097 / 256) :: (List.replicate 4097 65 ++ []) by
          rw [List.append_nil]; rfl)
      (by rw [List.length_replicate, decodeLen_lenBytes (by omega)]) (fun _ => 0) le_rfl
    simp only [List.length_replicate] at reading reach
    exact ⟨body, reading, by rw [reach, maxPacketLen]; omega⟩
  · obtain ⟨body, reading, -, stored, -⟩ := readMessage_whole (fullReads_fair _)
      (show lenBytes 4096 ++ List.replicate 4096 65 =
        UInt8.ofNat 4096 :: UInt8.ofNat (4096 / 256) :: (List.replicate 4096 65 ++ []) by
          rw [List.append_nil]; rfl)
      (by rw [List.length_replicate, decodeLen_lenBytes (by omega)]) (fun _ => 0) le_rfl
    simp only [List.length_replicate] at reading
    refine ⟨body, reading, fun i inside => ?_⟩
    rw [stored, store_getElem _ _
        (by rw [List.length_replicate]; simp only [maxPacketLen] at inside; omega),
      List.getElem_replicate]
    decide

theorem readMessage_short {peer : Peer} (honest : peer.Honest)
    (early : wholeFrame peer.stream = false) (msg : Nat → UInt8) (fuel : Nat) :
    readMessage peer msg fuel = none := by
  match stream : peer.stream, early with
  | [], _ | [_], _ =>
    have stuck := readBytes_stuck honest 2 (by omega) fuel ⟨0, 0, 0, fun _ => 0, 0⟩
      (Nat.zero_le _) (Nat.zero_le _) (by simp [stream])
    simp [readMessage, stuck]
  | lo :: hi :: rest, early =>
    simp only [wholeFrame, decide_eq_false_iff_not, not_le] at early
    cases prefixRead : readBytes peer 2 fuel ⟨0, 0, 0, fun _ => 0, 0⟩ with
    | none => simp [readMessage, prefixRead]
    | some lenBuff =>
      obtain ⟨calls, filled⟩ := readBytes_fill honest.fair 2 (by omega) (fuel + 3)
        ⟨0, 0, 0, fun _ => 0, 0⟩ (Nat.zero_le _) (by simp [stream]) (by omega)
      rw [readBytes_mono prefixRead 3, Option.some.injEq] at filled
      have stuck := readBytes_stuck honest (decodeLen lo hi)
        ((decodeLen_lt lo hi).trans (by omega)) fuel ⟨0, lenBuff.calls, lenBuff.pos, msg, 0⟩
        (Nat.zero_le _) (by simp [filled, stream]) (by simp [filled, stream]; omega)
      have decoded : decodeLen (lenBuff.buffer 0) (lenBuff.buffer 1) = decodeLen lo hi := by
        simp [filled, stream, store]
      simp [readMessage, prefixRead, decoded, stuck]

theorem readMessage_first_read_failed {peer : Peer} (failed : peer.read 0 0 2 = -1)
    (msg : Nat → UInt8) (fuel : Nat) :
    readMessage peer msg (fuel + 2) = some (0, ⟨0, 1, 0, msg, 0⟩) := by
  have wraps : toGuint (-1) = 2 ^ 32 - 1 := rfl
  have wrapped :
      readCall peer 2 ⟨0, 0, 0, fun _ => 0, 0⟩ = ⟨2 ^ 32 - 1, 1, 0, fun _ => 0, 0⟩ := by
    simp [readCall, failed, wraps]
  simp [readMessage, readBytes, wrapped, decodeLen]

/-- A peer that sends the length bytes of a five-byte frame and closes: `_read_message`
never returns. A peer whose first read fails: `_read_message` returns a length of `0`. -/
theorem read_message_closed_or_failed :
    (∀ fuel, readMessage ⟨[5, 0], greedyReads [5, 0]⟩ (fun _ => 0) fuel = none) ∧
    readMessage ⟨[], fun _ _ _ => -1⟩ (fun _ => 0) 2 = some (0, ⟨0, 1, 0, fun _ => 0, 0⟩) :=
  ⟨readMessage_short (greedyReads_honest _) (by decide) _,
    readMessage_first_read_failed rfl _ 0⟩

end DeepStreamFpFilter.PromptFraming
