import UsbHost.Wire.Packing

/-!
# Packing is undone by unpacking

The words of a packet carry its bytes and nothing else but the zeros that fill
up the last word.  Words that are stored one after another in a buffer fill it
with the bytes they carry, until it is full; what is behind them stays.

Both directions are stated against the bytes that a list of words carries, so
that packing and unpacking meet there at every length.

## Main results

* `flatMap_packetWords` — the bytes of a packet's words are the packet and the
  zeros after it.
* `take_flatMap_packetWords` — cut to its length, what the words carry is the
  packet.
* `packetWords_flatMap_wordBytes` — packing what words carry gives the words.
* `spillWords_eq` — what words that are stored one after another leave in a
  buffer.
* `packing_inverts_unpacking` — packing and unpacking at every length.
-/

namespace UsbHost

/-- A word assembled from at most four bytes carries them, and zeros where
there were none. -/
theorem wordBytes_ofLittleEndian {bytes : List Byte} (h : bytes.length ≤ 4) :
    wordBytes (ofLittleEndian 32 bytes) =
      bytes ++ List.replicate (4 - bytes.length) 0 :=
  littleEndian_ofLittleEndian h (by decide)

/-- The bytes of a packet's words are the packet and the zeros after it. -/
theorem flatMap_packetWords (bytes : List Byte) :
    (packetWords bytes).flatMap wordBytes =
      bytes ++
        List.replicate (4 * wordCount bytes.length - bytes.length) 0 := by
  fun_induction packetWords bytes with
  | case1 => rfl
  | case2 a b c d rest ih =>
    have hcount : 4 * wordCount (a :: b :: c :: d :: rest).length -
        (a :: b :: c :: d :: rest).length =
          4 * wordCount rest.length - rest.length := by
      simp only [List.length_cons, wordCount]
      omega
    rw [List.flatMap_cons, wordBytes_ofLittleEndian (by simp), ih, hcount]
    simp
  | case3 last h₁ h₂ =>
    have hlen : last.length ≤ 3 ∧ 0 < last.length := by
      rcases last with _ | ⟨a, _ | ⟨b, _ | ⟨c, _ | ⟨d, rest⟩⟩⟩⟩
      · exact absurd rfl h₁
      · simp
      · simp
      · simp
      · exact absurd rfl (h₂ a b c d rest)
    have hcount : 4 * wordCount last.length = 4 := by
      simp only [wordCount]
      omega
    rw [hcount, List.flatMap_singleton, wordBytes_ofLittleEndian (by omega)]

/-- Cut to its length, what the words of a packet carry is the packet. -/
@[simp] theorem take_flatMap_packetWords (bytes : List Byte) :
    ((packetWords bytes).flatMap wordBytes).take bytes.length = bytes := by
  rw [flatMap_packetWords, List.take_left]

/-! ## Words and the bytes they carry -/

@[simp] theorem length_flatMap_wordBytes (words : List Word) :
    (words.flatMap wordBytes).length = 4 * words.length := by
  induction words with
  | nil => rfl
  | cons w rest ih =>
    rw [List.flatMap_cons, List.length_append, length_wordBytes, ih,
      List.length_cons]
    omega

/-- Byte `4 * n + k` of what words carry is byte `k` of word `n`. -/
theorem getElem?_flatMap_wordBytes (words : List Word) (n : Nat) {k : Nat}
    (hk : k < 4) :
    (words.flatMap wordBytes)[4 * n + k]? =
      words[n]?.map (·.extractLsb' (8 * k) 8) := by
  induction words generalizing n with
  | nil => rfl
  | cons w rest ih =>
    rw [List.flatMap_cons]
    cases n with
    | zero =>
      rw [List.getElem?_append_left (by simpa using hk), Nat.mul_zero,
        Nat.zero_add]
      exact getElem?_littleEndian w hk
    | succ n =>
      have hbehind : 4 * (n + 1) + k - 4 = 4 * n + k := by omega
      rw [List.getElem?_append_right (by simp; omega), length_wordBytes,
        hbehind, List.getElem?_cons_succ, ih]

/-- Packing what words carry gives the words. -/
theorem packetWords_flatMap_wordBytes (words : List Word) :
    packetWords (words.flatMap wordBytes) = words := by
  induction words with
  | nil => rfl
  | cons w rest ih =>
    have hword : ofLittleEndian 32 (wordBytes w) = w :=
      ofLittleEndian_littleEndian 4 w (by decide)
    show ofLittleEndian 32 (wordBytes w) ::
      packetWords (rest.flatMap wordBytes) = _
    rw [hword, ih]

/-- Byte `k` of word `n` of a packet is byte `4 * n + k` of it, and zero behind
its end. -/
theorem byte_of_packetWords (bytes : List Byte) {n k : Nat}
    (hn : n < wordCount bytes.length) (hk : k < 4) :
    (packetWords bytes)[n]?.map (·.extractLsb' (8 * k) 8) =
      some (bytes[4 * n + k]?.getD 0) := by
  rw [← getElem?_flatMap_wordBytes _ _ hk, flatMap_packetWords]
  by_cases h : 4 * n + k < bytes.length
  · rw [List.getElem?_append_left h, List.getElem?_eq_getElem h]
    rfl
  · have hbehind : 4 * n + k - bytes.length <
        4 * wordCount bytes.length - bytes.length := by omega
    rw [List.getElem?_append_right (by omega),
      List.getElem?_replicate_of_lt hbehind,
      List.getElem?_eq_none (by omega)]
    rfl

/-! ## Words stored in a buffer -/

/-- Stores words one after another, each at the front of what the ones before
it have left of the room.  Returns how many bytes were stored, and the room
afterwards. -/
def spillWords : List Word → List Byte → Nat × List Byte
  | [], room => (0, room)
  | w :: rest, room =>
    let (count, out) := spillWord w room
    let (more, left) := spillWords rest (out.drop count)
    (count + more, out.take count ++ left)

/-- Words that are stored one after another put the front of the bytes they
carry into the room, and leave what is behind it. -/
theorem spillWords_eq (words : List Word) (room : List Byte) :
    spillWords words room =
      (min room.length (4 * words.length),
        (words.flatMap wordBytes).take room.length ++
          room.drop (4 * words.length)) := by
  induction words generalizing room with
  | nil => simp [spillWords]
  | cons w rest ih =>
    have hfront : ((wordBytes w).take room.length).length =
        min room.length 4 := by
      rw [List.length_take, length_wordBytes]
    have hcount : min room.length 4 +
        min (room.length - 4) (4 * rest.length) =
          min room.length (4 * (rest.length + 1)) := by omega
    have hdrop : 4 + 4 * rest.length = 4 * (rest.length + 1) := by omega
    simp only [spillWords, spillWord]
    rw [List.drop_left' hfront, List.take_left' hfront, ih, List.length_drop,
      List.drop_drop, hcount, hdrop, List.flatMap_cons, List.take_append,
      length_wordBytes, List.append_assoc, List.length_cons]

/-- The words of a packet store its bytes as long as there is room, then zeros
up to the end of the last word. -/
theorem spillWords_packetWords (bytes room : List Byte) :
    let stored := min room.length (4 * wordCount bytes.length)
    spillWords (packetWords bytes) room =
      (stored, bytes.take room.length ++
        List.replicate (stored - bytes.length) 0 ++ room.drop stored) := by
  intro stored
  have hdrop : room.drop (4 * wordCount bytes.length) = room.drop stored := by
    by_cases h : room.length ≤ 4 * wordCount bytes.length
    · have hfull : stored = room.length := Nat.min_eq_left h
      rw [hfull, List.drop_length, List.drop_of_length_le h]
    · have hall : stored = 4 * wordCount bytes.length :=
        Nat.min_eq_right (by omega)
      rw [hall]
  have hzeros : min (room.length - bytes.length)
      (4 * wordCount bytes.length - bytes.length) = stored - bytes.length := by
    omega
  rw [spillWords_eq, length_packetWords, flatMap_packetWords, hdrop,
    List.take_append, List.take_replicate, hzeros]

/-- Words that all find room are packed again from what they have stored. -/
theorem packetWords_stored (words : List Word) {room : List Byte}
    (h : 4 * words.length ≤ room.length) :
    packetWords ((spillWords words room).2.take (spillWords words room).1) =
      words := by
  have hlength := length_flatMap_wordBytes words
  have hall : (words.flatMap wordBytes).take room.length =
      words.flatMap wordBytes := List.take_of_length_le (by omega)
  rw [spillWords_eq]
  dsimp only
  rw [Nat.min_eq_right h, hall, List.take_left' hlength,
    packetWords_flatMap_wordBytes]

/-- A packet takes just as many words as hold its bytes; byte `k` of word `n`
is its byte `4 * n + k`, and zero behind its end.  These words, stored one
after another in a room of any size, put as many of its bytes there as fit,
then zeros to the end of the last word at most, and leave the rest.  And words
that all find room are packed again from the bytes they have stored. -/
theorem packing_inverts_unpacking :
    (∀ bytes : List Byte,
      (packetWords bytes).length = wordCount bytes.length ∧
        bytes.length ≤ 4 * wordCount bytes.length ∧
        4 * wordCount bytes.length < bytes.length + 4 ∧
        ∀ n k, n < wordCount bytes.length → k < 4 →
          (packetWords bytes)[n]?.map (·.extractLsb' (8 * k) 8) =
            some (bytes[4 * n + k]?.getD 0)) ∧
    (∀ bytes room : List Byte,
      let stored := min room.length (4 * wordCount bytes.length)
      spillWords (packetWords bytes) room =
        (stored, bytes.take room.length ++
          List.replicate (stored - bytes.length) 0 ++ room.drop stored)) ∧
    ∀ (words : List Word) (room : List Byte),
      4 * words.length ≤ room.length →
        packetWords
          ((spillWords words room).2.take (spillWords words room).1) =
            words := by
  refine ⟨?_, spillWords_packetWords, fun words _ => packetWords_stored words⟩
  intro bytes
  have hcount : bytes.length ≤ 4 * wordCount bytes.length ∧
      4 * wordCount bytes.length < bytes.length + 4 := by
    simp only [wordCount]
    omega
  exact ⟨length_packetWords bytes, hcount.1, hcount.2,
    fun _ _ => byte_of_packetWords bytes⟩

/-- Seven bytes in a room of nine: a zero fills up the second word, the ninth
byte is left, and the words come back from the eight that are stored. -/
theorem seven_bytes_packed :
    let bytes : List Byte := [1, 2, 3, 4, 5, 6, 7]
    let room : List Byte := List.replicate 9 0xAA
    (packetWords bytes)[1]?.map (·.extractLsb' (8 * 3) 8) = some 0 ∧
      spillWords (packetWords bytes) room =
        (8, [1, 2, 3, 4, 5, 6, 7, 0, 0xAA]) ∧
      packetWords [1, 2, 3, 4, 5, 6, 7, 0] = packetWords bytes := by
  intro bytes room
  obtain ⟨hpacked, hstored, hagain⟩ := packing_inverts_unpacking
  have hout : spillWords (packetWords bytes) room =
      (8, [1, 2, 3, 4, 5, 6, 7, 0, 0xAA]) :=
    (hstored bytes room).trans (by decide)
  have hwords := hagain (packetWords bytes) room (by decide)
  rw [hout] at hwords
  exact ⟨(hpacked bytes).2.2.2 1 3 (by decide) (by decide), hout, hwords⟩

end UsbHost
