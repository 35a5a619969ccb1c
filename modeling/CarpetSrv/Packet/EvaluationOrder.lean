import CarpetSrv.Foundation.OperandOrder
import CarpetSrv.Packet.WireFormat

/-!
# Readers under every evaluation order

`readInt` combines four `readByte` calls with `|`, and the position and the
spawn-point packet pass three reads as arguments of one call. The order of
these calls is left to the compiler, and each of them moves the read position.
The result is therefore the value on the wire in every order only where the
bytes or the coordinates do not differ from one another.

## Implementation notes

Each reader takes the order of its operands as a parameter. In the model, the
operands of `|` are read from left to right.
-/

namespace CarpetSrv.Packet

open Foundation Foundation.ExceptState Foundation.BigEndian Buffer

/-- The four operands of `readInt`, most significant first. -/
def intOfOperands (byte : Fin 4 → Byte) : CInt :=
  ((byte 0).setWidth 32 <<< 24) ||| ((byte 1).setWidth 32 <<< 16) |||
    ((byte 2).setWidth 32 <<< 8) ||| (byte 3).setWidth 32

/-- `readInt` with its operands evaluated in this order. -/
def readIntIn (order : Equiv.Perm (Fin 4)) : BufferReader CInt := do
  let byte ← evaluate order fun _ => readByte
  return intOfOperands byte

/-- `readData` of the spawn-point packet, with orders for its arguments and for
the operands of each `readInt`. -/
def SpawnPointPacket.readDataIn (order : Equiv.Perm (Fin 3)) (operands : Equiv.Perm (Fin 4)) :
    BufferReader SpawnPointPacket := do
  let argument ← evaluate order fun _ => readIntIn operands
  return callThree SpawnPointPacket.mk argument

/-- A reader that leaves the order of its reads to the compiler. -/
inductive UnorderedReader
  | int
  | position
  | spawnPoint

namespace UnorderedReader

/-- The number of bytes that the reader needs. -/
def size : UnorderedReader → Nat
  | int => 4
  | position => 33
  | spawnPoint => 12

/-- The word at place `i` among words of `k` bytes behind the read position. -/
def word (w k : Nat) (b : Buffer) (i : Nat) : BitVec w :=
  ofBytes w ((b.rest.drop (k * i)).take k)

/-- Any two orders give the same result, and it is this value. -/
def Agrees {ω β : Type} (decode : ω → Option β) (value : β) : Prop :=
  ∀ order order', decode order = decode order' ∧ decode order = some value

/-- Every evaluation order gives the big-endian int or the coordinates in wire order. -/
def OrderFree (b : Buffer) : UnorderedReader → Prop
  | int => Agrees (fun order => returned (readIntIn order) b) (word 32 4 b 0)
  | position => Agrees
      (fun order => (returned (PlayerPositionPacket.readData order) b).map (·.location))
      ⟨word 64 8 b 0, word 64 8 b 1, word 64 8 b 2⟩
  | spawnPoint => Agrees
      (fun order : Equiv.Perm (Fin 3) × Equiv.Perm (Fin 4) =>
        returned (SpawnPointPacket.readDataIn order.1 order.2) b)
      ⟨word 32 4 b 0, word 32 4 b 1, word 32 4 b 2⟩

/-- What the operands read does not differ from one operand to another. -/
def Uniform (b : Buffer) : UnorderedReader → Prop
  | int => ∀ x ∈ b.rest.take 4, ∀ y ∈ b.rest.take 4, x = y
  | position => ∀ i j : Fin 3, word 64 8 b i = word 64 8 b j
  | spawnPoint => ∀ x ∈ b.rest.take 12, ∀ y ∈ b.rest.take 12, x = y

end UnorderedReader

/-! ## From left to right -/

theorem readIntIn_leftToRight : readIntIn leftToRight = readInt := by
  simp [readIntIn, readInt, evaluate, collect, List.ofFn_succ, intOfOperands]

theorem readDataIn_leftToRight (order : Equiv.Perm (Fin 3)) :
    SpawnPointPacket.readDataIn order leftToRight = SpawnPointPacket.readData order := by
  rw [SpawnPointPacket.readDataIn, SpawnPointPacket.readData, readIntIn_leftToRight]

/-! ## What an order returns -/

theorem intOfOperands_eq (byte : Fin 4 → Byte) :
    intOfOperands byte = ofBytes 32 (List.ofFn byte) := by
  simp [intOfOperands, ofBytes, pushByte, List.ofFn_succ, BitVec.shiftLeft_or_distrib,
    ← BitVec.shiftLeft_add]

theorem ofBytes_ofFn_injective {w k : Nat} (h : 8 * k ≤ w) {v v' : Fin k → Byte}
    (heq : ofBytes w (List.ofFn v) = ofBytes w (List.ofFn v')) : v = v' := by
  have hbytes : ∀ u : Fin k → Byte, toBytes k (ofBytes w (List.ofFn u)) = List.ofFn u := by
    intro u
    have hb := toBytes_ofBytes (w := w) (List.ofFn u) (by rwa [List.length_ofFn])
    rwa [List.length_ofFn] at hb
  apply List.ofFn_injective
  rw [← hbytes v, heq, hbytes v']

theorem flatten_singletons {n : Nat} (v : Fin n → Byte) :
    (List.ofFn fun i => [v i]).flatten = List.ofFn v := by
  rw [← List.flatMap_singleton' (List.ofFn v), List.flatMap_def, List.map_ofFn]
  rfl

theorem readIntIn_reads (order : Equiv.Perm (Fin 4)) (byte : Fin 4 → Byte) :
    Reads (readIntIn order) (List.ofFn byte)
      (ofBytes 32 (List.ofFn fun i => byte (order.symm i))) := by
  have hread := (evaluate_reads order fun k => readByte_reads (byte k)).map intOfOperands
  rwa [intOfOperands_eq, flatten_singletons] at hread

theorem spawnPoint_reads_in (order : Equiv.Perm (Fin 3)) (operands : Equiv.Perm (Fin 4))
    (byte : Fin 3 → Fin 4 → Byte) :
    Reads (SpawnPointPacket.readDataIn order operands)
      (List.ofFn fun i => List.ofFn (byte i)).flatten
      (let argument i := ofBytes 32 (List.ofFn fun j => byte (order.symm i) (operands.symm j))
       ⟨argument 0, argument 1, argument 2⟩) := by
  have hargument := evaluate_reads order fun k => readIntIn_reads operands (byte k)
  exact hargument.map fun argument => (⟨argument 0, argument 1, argument 2⟩ : SpawnPointPacket)

theorem readDouble_reads_ofFn (byte : Fin 8 → Byte) :
    Reads readDouble (List.ofFn byte) (ofBytes 64 (List.ofFn byte)) := by
  have hread := readDouble_reads (ofBytes 64 (List.ofFn byte))
  have hbytes := toBytes_ofBytes (w := 64) (List.ofFn byte) (by rw [List.length_ofFn])
  rw [List.length_ofFn] at hbytes
  rwa [hbytes] at hread

theorem position_reads_in (order : Equiv.Perm (Fin 3)) (byte : Fin 3 → Fin 8 → Byte)
    (stance : Fin 8 → Byte) (onGround : Byte) :
    Reads (PlayerPositionPacket.readData order)
      ((List.ofFn fun i => List.ofFn (byte i)).flatten ++ (List.ofFn stance ++ [onGround]))
      (let argument i := ofBytes 64 (List.ofFn (byte (order.symm i)))
       { location := ⟨argument 0, argument 1, argument 2⟩,
         stance := ofBytes 64 (List.ofFn stance), onGround := onGround != 0 }) := by
  apply Reads.bind (evaluate_reads order fun k => readDouble_reads_ofFn (byte k))
  apply Reads.bind (readDouble_reads_ofFn stance)
  exact (readBool_reads onGround).map _

theorem returned_of_reads {α : Type} {m : BufferReader α} {xs ys : List Byte} {a : α}
    (h : Reads m xs a) {b : Buffer} (hrest : b.rest = xs ++ ys) : returned m b = some a := by
  rw [returned, h b ys hrest]

/-! ## Independence of the order -/

namespace UnorderedReader

theorem agrees_iff {ω β : Type} {decode : ω → Option β} {value : β} :
    Agrees decode value ↔ ∀ order, decode order = some value := by
  constructor
  · intro h order
    exact (h order order).2
  · intro h order order'
    exact ⟨(h order).trans (h order').symm, h order⟩

theorem word_of_blocks {w n k : Nat} {b : Buffer} {byte : Fin n → Fin k → Byte}
    {ys : List Byte} (h : b.rest = (List.ofFn fun i => List.ofFn (byte i)).flatten ++ ys)
    (i : Fin n) : word w k b i = ofBytes w (List.ofFn (byte i)) := by
  rw [word, h, take_drop_blocks]

theorem uniform_bytes_iff {n k size : Nat} (hsize : size = n * k) {b : Buffer}
    {byte : Fin n → Fin k → Byte} {ys : List Byte}
    (h : b.rest = (List.ofFn fun i => List.ofFn (byte i)).flatten ++ ys) :
    (∀ x ∈ b.rest.take size, ∀ y ∈ b.rest.take size, x = y) ↔
      ∀ i j i' j', byte i j = byte i' j' := by
  rw [h, hsize, take_blocks]
  constructor
  · intro hall i j i' j'
    exact hall _ (mem_blocks.mpr ⟨i, j, rfl⟩) _ (mem_blocks.mpr ⟨i', j', rfl⟩)
  · intro hall x hx y hy
    obtain ⟨i, j, rfl⟩ := mem_blocks.mp hx
    obtain ⟨i', j', rfl⟩ := mem_blocks.mp hy
    exact hall i j i' j'

theorem coordinates_eq_iff {β : Type} {f g : Fin 3 → β} :
    f 0 = g 0 ∧ f 1 = g 1 ∧ f 2 = g 2 ↔ f = g := by
  simp [funext_iff, Fin.forall_fin_succ]

theorem int_orderFree_iff {b : Buffer} (h : 4 ≤ b.rest.length) :
    OrderFree b int ↔ Uniform b int := by
  obtain ⟨byte, ys, hrest⟩ := exists_blocks_append 1 4 b.rest h
  have hblock : b.rest = List.ofFn (byte 0) ++ ys := by simpa using hrest
  have hword : word 32 4 b 0 = ofBytes 32 (List.ofFn (byte 0)) := word_of_blocks hrest 0
  calc
    OrderFree b int ↔ ∀ order : Equiv.Perm (Fin 4), (fun i => byte 0 (order.symm i)) = byte 0 := by
      rw [OrderFree, agrees_iff]
      apply forall_congr'
      intro order
      rw [returned_of_reads (readIntIn_reads order (byte 0)) hblock, Option.some.injEq, hword]
      exact ⟨ofBytes_ofFn_injective (by omega), fun heq => by rw [heq]⟩
    _ ↔ ∀ i j, byte 0 i = byte 0 j := forall_perm_eq_iff (byte 0)
    _ ↔ ∀ i j i' j', byte i j = byte i' j' := by simp [Fin.forall_fin_one]
    _ ↔ Uniform b int := (uniform_bytes_iff rfl hrest).symm

theorem position_orderFree_iff {b : Buffer} (h : 33 ≤ b.rest.length) :
    OrderFree b position ↔ Uniform b position := by
  obtain ⟨byte, behind, hrest⟩ := exists_blocks_append 3 8 b.rest (by omega)
  have hlen : 9 ≤ behind.length := by
    have hl := congrArg List.length hrest
    simp at hl
    omega
  obtain ⟨stance, rest, rfl⟩ := exists_ofFn_append 8 behind (by omega)
  obtain ⟨ground, ys, rfl⟩ := exists_ofFn_append 1 rest (by simpa using hlen)
  have hbytes : b.rest = (List.ofFn fun i => List.ofFn (byte i)).flatten ++
      (List.ofFn stance ++ [ground 0]) ++ ys := by
    rw [hrest]
    simp
  have hword : ∀ i : Fin 3, word 64 8 b i = ofBytes 64 (List.ofFn (byte i)) :=
    word_of_blocks hrest
  calc
    OrderFree b position ↔ ∀ order : Equiv.Perm (Fin 3),
        (fun i => word 64 8 b (order.symm i)) = fun i : Fin 3 => word 64 8 b i := by
      rw [OrderFree, agrees_iff]
      apply forall_congr'
      intro order
      rw [returned_of_reads (position_reads_in order byte stance (ground 0)) hbytes,
        ← coordinates_eq_iff]
      simp only [Option.map_some, Option.some.injEq, Location.mk.injEq, ← hword]
      rfl
    _ ↔ Uniform b position := forall_perm_eq_iff fun i : Fin 3 => word 64 8 b i

theorem spawnPoint_orderFree_iff {b : Buffer} (h : 12 ≤ b.rest.length) :
    OrderFree b spawnPoint ↔ Uniform b spawnPoint := by
  obtain ⟨byte, ys, hrest⟩ := exists_blocks_append 3 4 b.rest h
  have hword : ∀ i : Fin 3, word 32 4 b i = ofBytes 32 (List.ofFn (byte i)) :=
    word_of_blocks hrest
  calc
    OrderFree b spawnPoint ↔ ∀ (order : Equiv.Perm (Fin 3) × Equiv.Perm (Fin 4)) (i : Fin 3),
        (fun j => byte (order.1.symm i) (order.2.symm j)) = byte i := by
      rw [OrderFree, agrees_iff]
      apply forall_congr'
      intro order
      rw [returned_of_reads (spawnPoint_reads_in order.1 order.2 byte) hrest, Option.some.injEq,
        SpawnPointPacket.mk.injEq]
      apply Iff.trans (coordinates_eq_iff
        (f := fun i => ofBytes 32 (List.ofFn fun j => byte (order.1.symm i) (order.2.symm j)))
        (g := fun i : Fin 3 => word 32 4 b i))
      rw [funext_iff]
      apply forall_congr'
      intro i
      rw [hword]
      exact ⟨ofBytes_ofFn_injective (by omega), fun heq => by rw [heq]⟩
    _ ↔ ∀ i j i' j', byte i j = byte i' j' := by
      constructor
      · intro hall i j i' j'
        have hswap := congrFun (hall (Equiv.swap i i', Equiv.swap j j') i') j'
        simpa using hswap
      · intro hall order i
        funext j
        exact hall _ _ _ _
    _ ↔ Uniform b spawnPoint := (uniform_bytes_iff rfl hrest).symm

/-- With enough bytes left, the order does not matter exactly when the bytes of
an int, all bytes of a spawn point, or the three coordinates of a position are equal. -/
theorem orderFree_iff_uniform (r : UnorderedReader) (b : Buffer) (h : r.size ≤ b.rest.length) :
    OrderFree b r ↔ Uniform b r := by
  cases r with
  | int => exact int_orderFree_iff h
  | position => exact position_orderFree_iff h
  | spawnPoint => exact spawnPoint_orderFree_iff h

/-- The int whose four bytes are equal. -/
theorem orderFree_iff_uniform_equal_bytes : OrderFree ⟨[7, 7, 7, 7], 0, []⟩ int := by
  apply (orderFree_iff_uniform int _ (by decide)).mpr
  show ∀ x ∈ [(7 : Byte), 7, 7, 7], ∀ y ∈ [(7 : Byte), 7, 7, 7], x = y
  decide

/-- The four bytes of the int 1 read from right to left are another int. -/
theorem readInt_depends_on_order :
    ¬ ∀ (r : UnorderedReader) (b : Buffer), r.size ≤ b.rest.length → OrderFree b r := by
  intro h
  have hfree := h int ⟨[0, 0, 0, 1], 0, []⟩ (by decide)
  have huniform := (int_orderFree_iff (by decide)).mp hfree
  exact absurd (huniform 0 (by decide) 1 (by decide)) (by decide)

end UnorderedReader

end CarpetSrv.Packet
