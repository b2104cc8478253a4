import DistCache.Replication.ReplicationManager

namespace DistCache.Replication

open Cluster

-- A run of the queue is a sequence of the calls below, in the order they take `queue_mutex_`.

inductive QueueCall
  | queueWrite (key value : Bytes) (ttlSeconds version : Int)
  | queueDelete (key : Bytes) (version : Int)
  | workerPass

-- The entry a call asks to queue.
def QueueCall.entry? : QueueCall → Option QueuedEntry
  | .queueWrite key value ttlSeconds version => some ⟨.set, key, value, ttlSeconds, version⟩
  | .queueDelete key version => some ⟨.delete, key, [], 0, version⟩
  | .workerPass => none

namespace ReplicationManager

-- One call: the manager after it, the entries it accepted, and the batch it sent.
def handle (m : ReplicationManager) (c : QueueCall) :
    ReplicationManager × List QueuedEntry × Option (List Node × List ReplicationEntry) :=
  match c with
  | .queueWrite key value ttlSeconds version =>
    let r := m.queueWrite key value ttlSeconds version
    (r.2, if r.1 then c.entry?.toList else [], none)
  | .queueDelete key version =>
    let r := m.queueDelete key version
    (r.2, if r.1 then c.entry?.toList else [], none)
  | .workerPass =>
    let r := m.workerPass
    (r.2, [], r.1)

-- A run: the manager at the end, every entry accepted and every batch sent, in order.
def runQueue (m : ReplicationManager) :
    List QueueCall → ReplicationManager × List QueuedEntry × List (List Node × List ReplicationEntry)
  | [] => (m, [], [])
  | c :: cs =>
    let r := m.handle c
    let rest := r.1.runQueue cs
    (rest.1, r.2.1 ++ rest.2.1, r.2.2.toList ++ rest.2.2)

-- `SendBatch` sends the entries in their wire form.
@[simp] theorem sendBatch_snd (m : ReplicationManager) (entries : List QueuedEntry) :
    (m.sendBatch entries).2 = entries.map toEntry := by
  cases entries <;> rfl

@[simp] theorem handle_config (m : ReplicationManager) (c : QueueCall) :
    (m.handle c).1.config = m.config := by
  cases c <;> simp only [handle, queueWrite, queueDelete, workerPass] <;> split <;> rfl

-- What was queued and what a call accepts is what it sends, then what stays queued.
theorem handle_queue (m : ReplicationManager) (c : QueueCall) :
    (m.queue ++ (m.handle c).2.1).map toEntry =
      (m.handle c).2.2.toList.flatMap Prod.snd ++ (m.handle c).1.queue.map toEntry := by
  cases c with
  | queueWrite | queueDelete =>
    simp only [handle, queueWrite, queueDelete]
    split <;> simp [QueueCall.entry?]
  | workerPass =>
    simp only [handle, workerPass]
    split
    · simp
    · simp [List.map_take, List.map_drop]

theorem handle_batch_length (m : ReplicationManager) (c : QueueCall) :
    ∀ b ∈ (m.handle c).2.2, b.2.length ≤ m.config.batchSize := by
  cases c with
  | queueWrite | queueDelete => simp [handle]
  | workerPass =>
    simp only [handle, workerPass]
    split <;> simp

theorem handle_length_le (m : ReplicationManager) (c : QueueCall)
    (h : m.queue.length ≤ m.config.maxQueueSize) :
    (m.handle c).1.queue.length ≤ m.config.maxQueueSize := by
  cases c with
  | queueWrite | queueDelete =>
    simp only [handle, queueWrite, queueDelete]
    split
    · exact h
    · simp only [List.length_append, List.length_singleton]
      omega
  | workerPass =>
    simp only [handle, workerPass]
    split
    · exact h
    · simp only [List.length_drop]
      omega

-- Over every run, no queued entry is lost or sent twice.
theorem runQueue_delivers_once (m : ReplicationManager) (calls : List QueueCall) :
    let r := m.runQueue calls
    (m.queue ++ r.2.1).map toEntry = r.2.2.flatMap Prod.snd ++ r.1.queue.map toEntry ∧
      (∀ b ∈ r.2.2, b.2.length ≤ m.config.batchSize) ∧
      (m.queue.length ≤ m.config.maxQueueSize → r.1.queue.length ≤ m.config.maxQueueSize) := by
  induction calls generalizing m with
  | nil => simp [runQueue]
  | cons c cs ih =>
    obtain ⟨hq, hb, hl⟩ := ih (m.handle c).1
    simp only [handle_config] at hb hl
    refine ⟨?_, fun b hmem => ?_, fun h => hl (handle_length_le m c h)⟩
    · simp only [runQueue]
      rw [← List.append_assoc, List.map_append, handle_queue, List.append_assoc, ← List.map_append,
        hq, List.flatMap_append, List.append_assoc]
    · simp only [runQueue, List.mem_append, Option.mem_toList] at hmem
      rcases hmem with hmem | hmem
      · exact handle_batch_length m c b hmem
      · exact hb b hmem

end ReplicationManager

end DistCache.Replication
