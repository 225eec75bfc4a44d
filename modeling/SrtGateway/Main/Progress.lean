/-
From the wire to the cloud, in the end.

What has been received is settled once enough calls of `run_once` have returned with nothing to
retry (`received_settled`).  What the other threads do in between, and how fast new fixes come
in, makes no difference, as long as their calls on the store do not come inside those of the
uplinker, where a rollback would undo its marks.
-/
import SrtGateway.Main.WireToCloud
import SrtGateway.Uplink.Progress

namespace SrtGateway.Main

open SrtGateway.Protocol SrtGateway.Store

/-- A call of `run_once` returns with nothing to retry. -/
def cleared (g : Gateway) : Step → ℕ
  | .uplinkAdvance world => Uplink.cleared g.toSystem (.advance world)
  | .read _ | .dispatch | .uplinkStart _ | .downlinkPoll _ _ | .sendFails _ | .restart => 0

variable (cfg : Config)

/-- How many calls return with nothing to retry. -/
def clearedIn (g : Gateway) (steps : List Step) : ℕ :=
  Runs.total (Gateway.step cfg) cleared g steps

/-- A step of the gateway counts for as much as its steps on the uplink side. -/
lemma cleared_eq {g : Gateway} {s : Uplink.System} (h : Agrees g.toSystem s) (st : Step) :
    cleared g st = Uplink.clearedIn s (uplinkSteps g st) := by
  cases st with
  | uplinkAdvance world =>
    show Uplink.cleared g.toSystem (.advance world) = Uplink.cleared s (.advance world) + 0
    rw [Uplink.cleared, h.running, Nat.add_zero, Uplink.cleared]
  | dispatch =>
    have hnone : ∀ frame decoded, Uplink.clearedIn s (insertOf frame decoded) = 0 := by
      intro frame decoded
      cases decoded with
      | uplink u =>
        rw [insertOf]
        split <;> rfl
      | _ => rfl
    rw [uplinkSteps]
    split
    · rfl
    · exact (hnone _ _).symm
  | uplinkStart | restart | read | downlinkPoll | sendFails => rfl

lemma queue_of_agrees {s s' : Uplink.System} (h : Agrees s s') :
    Uplink.queue s.db = Uplink.queue s'.db := by
  obtain ⟨other, rfl⟩ := h
  rfl

/-- The calls that a step starts on the uplink side are those that it starts. -/
lemma start_of_answer {steps : List Step} {b : ℕ}
    (hbatch : ∀ batchSize, .uplinkStart batchSize ∈ steps → b ≤ batchSize) {st : Step}
    (hst : st ∈ steps) {g : Gateway} :
    ∀ k ∈ uplinkSteps g st, ∀ batchSize, k = .start batchSize → b ≤ batchSize := by
  rintro k hk batchSize rfl
  cases st with
  | uplinkStart batchSize' =>
    obtain ⟨⟩ := List.mem_singleton.mp hk
    exact hbatch _ hst
  | dispatch =>
    simp only [uplinkSteps, insertOf] at hk
    repeat' split at hk
    all_goals simp at hk
  | uplinkAdvance | restart => cases List.mem_singleton.mp hk
  | read | downlinkPoll | sendFails => cases hk

/-- **Whatever is received gets settled.**  The gateway, with an atomic store, goes on in any way
from any state in which `n` fixes are un-synced, with fetches of `b` rows at least.  Once
`⌈n / b⌉` calls of `run_once` have returned with nothing to retry, not counting one that was
running at the start, every uplink that had been received by the start, and whose time of
reception can be bound, is settled: it, or an earlier fix of which it is a resend, was in a POST
that was answered 2xx, or it was rejected on its own and is in `dead_letter`. -/
theorem received_settled (before after : List Step) (b : ℕ)
    (hbatch : ∀ batchSize, .uplinkStart batchSize ∈ after → b ≤ batchSize)
    (hcalls : (Uplink.queue (Gateway.run cfg before).db).length ≤
      b * (clearedIn cfg (Gateway.run cfg before) after - (Gateway.run cfg before).underway)) :
    let g := Gateway.run cfg (before ++ after)
    ∀ u ∈ (Gateway.run cfg before).received, u.rxTimeMs < 2 ^ 63 →
      ∃ id u', Uplink.SameFix u u' ∧
        (Uplink.Delivered g.toSystem id u' ∨ Uplink.DeadLettered g.toSystem id u') := by
  intro g u hu hrx
  have h₀ := agrees_of_run cfg before
  have h := agrees_of_run cfg (before ++ after)
  have hrun : Uplink.System.init.run (uplinkRun cfg (before ++ after)) =
      (Uplink.System.init.run (uplinkRun cfg before)).run
        (Runs.answers (Gateway.step cfg) uplinkSteps (Gateway.run cfg before) after) := by
    rw [uplinkRun, Runs.answers_append]
    exact List.foldl_append
  rw [hrun] at h
  have htotal : clearedIn cfg (Gateway.run cfg before) after = Uplink.clearedIn _ _ :=
    (simulation cfg).total (fun g s st hagrees => cleared_eq hagrees st) h₀ after
  have hbatch' := Runs.forall_answers (Gateway.step cfg) uplinkSteps
    (P := fun st => ∀ batchSize, st = .start batchSize → b ≤ batchSize)
    (fun st hst g => start_of_answer hbatch hst) (Gateway.run cfg before)
  rw [htotal, Uplink.System.underway, h₀.running, queue_of_agrees h₀] at hcalls
  obtain ⟨id, u', hcreated, hsame⟩ := noted_of_received cfg before hu hrx
  have hsettled := (Uplink.traced_run _).settled
    (fun batchSize hstart => hbatch' _ hstart batchSize rfl) hcalls hcreated
  obtain ⟨other, hsystem⟩ := h
  refine ⟨id, u', hsame, ?_⟩
  rw [show g.toSystem = _ from hsystem]
  exact hsettled

/-- A process that reads a frame and dispatches it. -/
def receiveSteps : List Step :=
  [.read (SerialIo.reopens ((encodeFrame T_UPLINK (Uplink.payloadAt 0)).toOption.getD [])),
    .dispatch]

/-- A call of `run_once`, with the next frame dispatched after its fetch. -/
def postSteps : List Step :=
  [.uplinkStart 1, .uplinkAdvance Uplink.accepting,
    .read (SerialIo.reads (.ok ((encodeFrame T_UPLINK (Uplink.payloadAt 7200)).toOption.getD []))),
    .dispatch] ++ List.replicate 7 (.uplinkAdvance Uplink.accepting)

/-- The theorem at a fix that is accepted while the next one comes in. -/
theorem received_settled_upload :
    let cfg : Config := { settings := { hasFactory := true }, serialPort := none }
    let g := Gateway.run cfg (receiveSteps ++ postSteps)
    (Uplink.queue g.db).length = 1 ∧ ∃ id u', Uplink.SameFix (Uplink.uplinkAt 0) u' ∧
      (Uplink.Delivered g.toSystem id u' ∨ Uplink.DeadLettered g.toSystem id u') := by
  intro cfg g
  have hbatch : ∀ batchSize, .uplinkStart batchSize ∈ postSteps → 1 ≤ batchSize := by
    intro batchSize hmem
    have hone : batchSize = 1 := by simpa [postSteps] using hmem
    exact hone.ge
  refine ⟨by decide +kernel, ?_⟩
  exact received_settled cfg receiveSteps postSteps 1 hbatch (by decide +kernel) (Uplink.uplinkAt 0)
    (by decide +kernel) (by decide)

end SrtGateway.Main
