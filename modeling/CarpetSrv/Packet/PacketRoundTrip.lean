import CarpetSrv.Packet.BufferWriters
import CarpetSrv.Packet.WireFormat

/-!
# Packets that are both written and read

Three classes define `writeData` and `readData`. Behind the packet id, two of
them read the fields in the order in which they write them. The position
packet writes the stance before z and reads it behind z, and it reads the
ground flag where it has written the yaw.
-/

namespace CarpetSrv.Packet

open Foundation Foundation.ExceptState Foundation.BigEndian Buffer

/-- The constructor from the three values that a caller chooses. The angles are zero. -/
def PlayerPositionPacket.create (location : Location) (stance : Double) (on_ground : Bool) :
    PlayerPositionPacket :=
  { location := location, stance := stance, onGround := on_ground }

/-- A packet of a class that defines both directions. -/
inductive TwoWayPacket
  | keepAlive (p : KeepAlivePacket)
  | spawnPoint (p : SpawnPointPacket)
  | playerPosition (location : Location) (stance : Double) (on_ground : Bool)

/-- Behind the id byte of what was written, the reader returns a packet with
the given property, whatever bytes follow. -/
def ReadsBack {α : Type} (write : Buffer → Buffer) (read : BufferReader α) (P : α → Prop) : Prop :=
  ∀ behind, ∃ p b, read { data := (write {}).data ++ behind, readPos := 1 } = .ok p b ∧ P p

namespace TwoWayPacket

/-- Reading undoes writing on the fields that are carried in both directions,
with arguments evaluated from left to right. -/
def Restored : TwoWayPacket → Prop
  | keepAlive p => ReadsBack p.writeData KeepAlivePacket.readData (· = p)
  | spawnPoint p => ReadsBack p.writeData (SpawnPointPacket.readData leftToRight) (· = p)
  | playerPosition location stance on_ground =>
      ReadsBack (PlayerPositionPacket.create location stance on_ground).writeData
        (PlayerPositionPacket.readData leftToRight)
        fun p => p.location = location ∧ p.stance = stance ∧ p.onGround = on_ground

/-- The fields for which the two layouts agree. -/
def FitsBothLayouts : TwoWayPacket → Prop
  | keepAlive _ | spawnPoint _ => True
  | playerPosition location stance on_ground => stance = location.z ∧ on_ground = false

end TwoWayPacket

/-- What a reader returns behind the id is determined by the bytes it reads there. -/
theorem readsBack_iff {α : Type} {write : Buffer → Buffer} {read : BufferReader α}
    {P : α → Prop} {id : Byte} {body tail : List Byte} {p : α}
    (hw : (write {}).data = id :: (body ++ tail)) (hr : Reads read body p) :
    ReadsBack write read P ↔ P p := by
  have hread : ∀ behind, ∃ b,
      read { data := (write {}).data ++ behind, readPos := 1 } = .ok p b := by
    intro behind
    refine ⟨_, hr _ (tail ++ behind) ?_⟩
    rw [hw, ReadCursor.rest]
    simp
  constructor
  · intro h
    obtain ⟨q, b, hq, hP⟩ := h []
    obtain ⟨b', hp⟩ := hread []
    cases hq.symm.trans hp
    exact hP
  · intro hP behind
    obtain ⟨b, hp⟩ := hread behind
    exact ⟨p, b, hp, hP⟩

theorem spawnPoint_reads (p : SpawnPointPacket) :
    Reads (SpawnPointPacket.readData leftToRight)
      (toBytes 4 p.x ++ (toBytes 4 p.y ++ toBytes 4 p.z)) p := by
  have hargument := evaluate_reads leftToRight fun i => readInt_reads (![p.x, p.y, p.z] i)
  have hread := hargument.map fun argument =>
    (⟨argument 0, argument 1, argument 2⟩ : SpawnPointPacket)
  have hbody : (List.ofFn fun i => toBytes 4 (![p.x, p.y, p.z] i)).flatten =
      toBytes 4 p.x ++ (toBytes 4 p.y ++ toBytes 4 p.z) := by
    simp [List.ofFn_succ]
  rwa [hbody] at hread

theorem keepAlive_writeData (p : KeepAlivePacket) :
    (p.writeData {}).data = 0x00 :: (toBytes 4 p.milliseconds ++ []) := by
  rw [KeepAlivePacket.writeData, writeInt_eq, List.append_nil]
  rfl

theorem spawnPoint_writeData (p : SpawnPointPacket) :
    (p.writeData {}).data =
      0x06 :: (toBytes 4 p.x ++ (toBytes 4 p.y ++ toBytes 4 p.z) ++ []) := by
  rw [SpawnPointPacket.writeData, writeInt_eq, writeInt_eq, writeInt_eq, addDatas_addDatas,
    addDatas_addDatas, List.append_nil]
  rfl

/-- The stance stands before z, and the ground flag behind the two angles. -/
theorem playerPosition_writeData (p : PlayerPositionPacket) :
    (p.writeData {}).data = 0x0D :: (toBytes 8 p.location.x ++ toBytes 8 p.location.y ++
      toBytes 8 p.stance ++ toBytes 8 p.location.z ++ toBytes 8 p.yaw ++ toBytes 8 p.pitch ++
      [if p.onGround then 1 else 0]) := by
  simp only [PlayerPositionPacket.writeData, writeDouble_eq, addDatas_addDatas, writeBool,
    writeByte_eq]
  rfl

/-- The bytes that the reader of a position meets in what a new packet writes. -/
theorem create_writeData (location : Location) (stance : Double) (on_ground : Bool) :
    ((PlayerPositionPacket.create location stance on_ground).writeData {}).data =
      0x0D :: ((ClientPacket.playerPosition location.x location.y stance location.z 0x00).body ++
        (toBytes 7 (0 : Double) ++ toBytes 8 (0 : Double) ++ [if on_ground then 1 else 0])) := by
  rw [playerPosition_writeData]
  cases on_ground <;> simp [ClientPacket.body, PlayerPositionPacket.create, toBytes]

/-- The reader takes the stance for z, z for the stance, and the first byte of
the yaw for the ground flag. -/
theorem playerPosition_restored_iff (location : Location) (stance : Double) (on_ground : Bool) :
    (TwoWayPacket.playerPosition location stance on_ground).Restored ↔
      stance = location.z ∧ on_ground = false := by
  have hread := playerPosition_reads leftToRight location.x location.y stance location.z 0x00
  have hlayout : (TwoWayPacket.playerPosition location stance on_ground).Restored ↔
      (⟨location.x, location.y, stance⟩ : Location) = location ∧ location.z = stance ∧
        false = on_ground :=
    readsBack_iff (create_writeData location stance on_ground) hread
  rw [hlayout]
  constructor
  · rintro ⟨_, hz, hg⟩
    exact ⟨hz.symm, hg.symm⟩
  · rintro ⟨rfl, rfl⟩
    exact ⟨rfl, rfl, rfl⟩

/-- Reading undoes writing exactly for the packets that fit both layouts. -/
theorem restored_iff (p : TwoWayPacket) : p.Restored ↔ p.FitsBothLayouts := by
  cases p with
  | keepAlive p =>
      have hread := keepAlive_reads p.milliseconds
      exact (readsBack_iff (keepAlive_writeData p) hread).trans (iff_of_true rfl trivial)
  | spawnPoint p =>
      have hread := spawnPoint_reads p
      exact (readsBack_iff (spawnPoint_writeData p) hread).trans (iff_of_true rfl trivial)
  | playerPosition location stance on_ground =>
      exact playerPosition_restored_iff location stance on_ground

/-- A position whose z is not its stance comes back with the two exchanged. -/
theorem position_not_restored : ¬ ∀ p : TwoWayPacket, p.Restored := by
  intro h
  have hz := (playerPosition_restored_iff ⟨0, 0, 1⟩ 0 false).mp (h _)
  exact absurd hz.1 (by decide)

end CarpetSrv.Packet
