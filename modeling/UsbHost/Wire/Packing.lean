import UsbHost.Bits.Word

/-!
# Packing bytes into FIFO words

The FIFOs of the controller move whole words.  Byte `4 * n + k` of a packet is
byte `k` of word `n`, least significant first; the last word of a packet is
filled up with zeros on the way in, and its surplus bytes are dropped on the
way out.

## Main results

* `length_packetWords` — a packet of `n` bytes takes `wordCount n` words.
* `spillWord_eq` — a word fills at most four bytes of the room it is given.
-/

namespace UsbHost

/-- How many words `count` bytes take. -/
def wordCount (count : Nat) : Nat := (count + 3) / 4

/-- The words of a packet. -/
def packetWords : List Byte → List Word
  | [] => []
  | a :: b :: c :: d :: rest =>
    ofLittleEndian 32 [a, b, c, d] :: packetWords rest
  | last => [ofLittleEndian 32 last]

/-- The four bytes of a word. -/
def wordBytes (w : Word) : List Byte := littleEndian 4 w

/-- Stores up to four bytes of `w` at the front of `room`.  Returns how many
were stored, and the room afterwards. -/
def spillWord (w : Word) (room : List Byte) : Nat × List Byte :=
  (min room.length 4, (wordBytes w).take room.length ++ room.drop 4)

@[simp] theorem length_wordBytes (w : Word) : (wordBytes w).length = 4 := by
  simp [wordBytes]

theorem length_packetWords (bytes : List Byte) :
    (packetWords bytes).length = wordCount bytes.length := by
  fun_induction packetWords bytes with
  | case1 => rfl
  | case2 a b c d rest ih =>
    simp only [List.length_cons, ih, wordCount]
    omega
  | case3 last h₁ h₂ =>
    rcases last with _ | ⟨a, _ | ⟨b, _ | ⟨c, _ | ⟨d, rest⟩⟩⟩⟩
    case cons.cons.cons.cons => exact absurd rfl (h₂ a b c d rest)
    all_goals simp_all [wordCount]

theorem spillWord_eq (w : Word) (room : List Byte) :
    (spillWord w room).2 =
      (wordBytes w).take (spillWord w room).1 ++
        room.drop (spillWord w room).1 := by
  by_cases h : room.length ≤ 4
  · have : room.drop 4 = room.drop room.length := by
      simp [List.drop_eq_nil_of_le h]
    simp [spillWord, Nat.min_eq_left h, this]
  · have h4 : 4 ≤ room.length := by omega
    rw [spillWord, Nat.min_eq_right h4, List.take_of_length_le (by simpa),
      List.take_of_length_le (by simp)]

end UsbHost
