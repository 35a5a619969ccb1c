import CarpetSrv.Foundation.StreamTransducer

/-!
# Writers that send their queue in batches

Items are queued while a batch is on its way, and the next batch takes the
whole queue. From some point on the output is encrypted with one cipher
stream. `Intact` is what such a writer guarantees: nothing is lost or
reordered, and the output is plain up to an item queued before the cipher was
there and encrypted from there on.

## Implementation notes

`enqueued`, `handed`, `bytes`, `key` and `before` are history. `before` lists
the items that were queued before the key was installed.
-/

namespace Foundation

@[ext]
structure BatchWriter (α β Key κ : Type) where
  queue : List α := []
  inFlight : Option (List α) := none
  ctx : Option κ := none
  enqueued : List α := []
  handed : List α := []
  bytes : List β := []
  key : Option Key := none
  before : List α := []

namespace BatchWriter

variable {α β Key κ : Type} (out : α → List β) (c : StreamCipher Key β κ)

/-- What is sent of a plaintext, and the context behind it. -/
def send (ctx : Option κ) (plain : List β) : List β × Option κ :=
  match ctx with
  | none => (plain, none)
  | some ctx => ((c.encrypt ctx plain).1, some (c.encrypt ctx plain).2)

/-- Send the whole queue as the next batch. -/
def post (w : BatchWriter α β Key κ) : BatchWriter α β Key κ :=
  { w with
    queue := []
    inFlight := some w.queue
    ctx := (send c w.ctx (w.queue.flatMap out)).2
    handed := w.handed ++ w.queue
    bytes := w.bytes ++ (send c w.ctx (w.queue.flatMap out)).1 }

/-- Put an item behind the queue. -/
def push (a : α) (w : BatchWriter α β Key κ) : BatchWriter α β Key κ :=
  { w with
    queue := w.queue ++ [a]
    enqueued := w.enqueued ++ [a]
    before := match w.key with
      | none => w.before ++ [a]
      | some _ => w.before }

theorem push_before_of_none {w : BatchWriter α β Key κ} (h : w.key = none) (a : α) :
    (push a w).before = w.before ++ [a] := by
  simp only [push, h]

theorem push_before_of_some {w : BatchWriter α β Key κ} {key : Key} (h : w.key = some key) (a : α) :
    (push a w).before = w.before := by
  simp only [push, h]

/-- Queue an item and send the queue unless a batch is on its way. -/
def enqueue (a : α) (w : BatchWriter α β Key κ) : BatchWriter α β Key κ :=
  match w.inFlight with
  | none => post out c (push a w)
  | some _ => push a w

def install (key : Key) (w : BatchWriter α β Key κ) : BatchWriter α β Key κ :=
  { w with ctx := some (c.encryptInit key), key := some key }

def complete (w : BatchWriter α β Key κ) : BatchWriter α β Key κ := { w with inFlight := none }

/-- The whole cipher stream of a plaintext under the installed key. -/
def sealed (key : Option Key) (plain : List β) : List β :=
  match key with
  | none => []
  | some key => (c.encrypt (c.encryptInit key) plain).1

/-- The handed items are `plain` and then `secret`, sent in the open and encrypted. -/
structure Splits (w : BatchWriter α β Key κ) (plain secret : List α) : Prop where
  handed : w.handed = plain ++ secret
  bytes : w.bytes = plain.flatMap out ++ sealed c w.key (secret.flatMap out)
  before : plain <+: w.before
  open_of_no_key : w.key = none → secret = []
  ctx : w.ctx = w.key.map fun key => (c.encrypt (c.encryptInit key) (secret.flatMap out)).2

structure Intact (w : BatchWriter α β Key κ) : Prop where
  fifo : w.handed ++ w.queue = w.enqueued
  before : w.key = none → w.before = w.enqueued
  splits : ∃ plain secret, Splits out c w plain secret

theorem intact_empty : Intact out c ({} : BatchWriter α β Key κ) where
  fifo := rfl
  before _ := rfl
  splits := ⟨[], [], rfl, rfl, List.nil_prefix, fun _ => rfl, rfl⟩

namespace Intact

variable {out c} {w : BatchWriter α β Key κ}

theorem push (a : α) (h : Intact out c w) : Intact out c (push a w) := by
  obtain ⟨plain, secret, hs⟩ := h.splits
  have hfifo : w.handed ++ (w.queue ++ [a]) = w.enqueued ++ [a] := by
    rw [← h.fifo, List.append_assoc]
  cases hk : w.key with
  | none =>
      refine ⟨hfifo, fun _ => ?_, plain, secret, hs.handed, hs.bytes, ?_, hs.open_of_no_key,
        hs.ctx⟩
      · rw [push_before_of_none hk, h.before hk]
        rfl
      · rw [push_before_of_none hk]
        exact hs.before.trans (List.prefix_append _ _)
  | some key =>
      refine ⟨hfifo, fun hn => ?_, plain, secret, hs.handed, hs.bytes, ?_, hs.open_of_no_key,
        hs.ctx⟩
      · cases hk.symm.trans hn
      · rw [push_before_of_some hk]
        exact hs.before

/-- Without a key the batch goes to the plain part, with one to the encrypted part. -/
theorem post (h : Intact out c w) : Intact out c (post out c w) := by
  obtain ⟨plain, secret, hs⟩ := h.splits
  have hctx := hs.ctx
  refine ⟨(List.append_nil _).trans h.fifo, h.before, ?_⟩
  cases hk : w.key with
  | none =>
      have hsecret := hs.open_of_no_key hk
      subst hsecret
      rw [hk] at hctx
      have hbytes := hs.bytes
      have hhanded := hs.handed
      rw [List.append_nil] at hhanded
      refine ⟨plain ++ w.queue, [], ?_, ?_, ?_, fun _ => rfl, ?_⟩
      · simp [BatchWriter.post, hhanded]
      · simp [BatchWriter.post, send, hctx, hbytes, hk, sealed]
      · rw [← hhanded, h.fifo, ← h.before hk]
        exact List.prefix_refl _
      · simp [BatchWriter.post, send, hctx, hk]
  | some key =>
      rw [hk] at hctx
      refine ⟨plain, secret ++ w.queue, ?_, ?_, hs.before, ?_, ?_⟩
      · simp [BatchWriter.post, hs.handed]
      · simp [BatchWriter.post, send, hctx, hs.bytes, hk, sealed, StreamCipher.encrypt_append]
      · intro hn
        cases hk.symm.trans hn
      · simp [BatchWriter.post, send, hctx, hk, StreamCipher.encrypt_append]

theorem enqueue (a : α) (h : Intact out c w) : Intact out c (enqueue out c a w) := by
  unfold BatchWriter.enqueue
  cases w.inFlight with
  | none => exact (h.push a).post
  | some _ => exact h.push a

/-- A key is installed once, and nothing has been encrypted before. -/
theorem install (key : Key) (hk : w.key = none) (h : Intact out c w) :
    Intact out c (install c key w) := by
  obtain ⟨plain, secret, hs⟩ := h.splits
  have hsecret := hs.open_of_no_key hk
  subst hsecret
  have hbytes := hs.bytes
  rw [hk] at hbytes
  exact ⟨h.fifo, nofun, plain, [], hs.handed, hbytes, hs.before, nofun, rfl⟩

theorem complete (h : Intact out c w) : Intact out c (complete w) := by
  obtain ⟨plain, secret, hs⟩ := h.splits
  exact ⟨h.fifo, h.before, plain, secret, hs.handed, hs.bytes, hs.before, hs.open_of_no_key, hs.ctx⟩

end Intact

/-! ## The queue and the batch on its way -/

theorem enqueue_of_idle {w : BatchWriter α β Key κ} (h : w.inFlight = none) (a : α) :
    enqueue out c a w = post out c (push a w) := by
  rw [enqueue, h]

theorem enqueue_of_busy {w : BatchWriter α β Key κ} {batch : List α}
    (h : w.inFlight = some batch) (a : α) : enqueue out c a w = push a w := by
  rw [enqueue, h]

end BatchWriter

end Foundation
