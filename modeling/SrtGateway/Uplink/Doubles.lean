/-
What the cloud can tell from a posted fix.

The numbers of a fix are floats from the decoder, or divided out by `insert_fix`; nothing that
they pass through on their way into a POST computes with them.  So in every run each fix that is
posted tells the fields of the payload that it was made of, to the last digit
(`posted_tells`).
-/
import SrtGateway.Protocol.Doubles
import SrtGateway.Uplink.Traced

namespace SrtGateway.Uplink

open SrtGateway.Floats SrtGateway.Protocol SrtGateway.Store

/-- The body with the quotients of `insert_fix` in floats; `lat`, `lon` and `snr` are what the
decoder has returned. -/
def FixBody.inDoubles (f : FixBody) : FixBody :=
  { f with sog := double f.sog, cog := double f.cog }

/-- The body tells the fields of the payload; of the time only the sum in `ts_ms`. -/
structure Tells (f : FixBody) (payload : List UInt8) : Prop where
  nodeId : f.nodeId = unsignedAt payload 1 2
  seq : f.seq = some (unsignedAt payload 3 2) ∨ f.seq = none
  lat : rescaled f.lat 10000000 = signedAt payload 5 4
  lon : rescaled f.lon 10000000 = signedAt payload 9 4
  sog : rescaled f.sog 100 = unsignedAt payload 13 2
  cog : rescaled f.cog 100 = unsignedAt payload 15 2
  batteryMv : f.batteryMv = unsignedAt payload 17 2
  tsMs : f.tsMs = unsignedAt payload 19 4 * 1000 + unsignedAt payload 23 2
  flags : f.flags = unsignedAt payload 25 1
  rssi : f.rssi = signedAt payload 26 2
  snr : rescaled f.snr 100 = signedAt payload 28 2

/-- A rendering of a decoded uplink tells its payload. -/
lemma Renders.tells {f : FixBody} {u : Uplink} (h : Renders f u) {payload : List UInt8}
    (hdecode : decodeUplinkInDoubles payload = some u) : Tells f.inDoubles payload := by
  obtain ⟨seq, hseq, hf⟩ := h
  unfold decodeUplinkInDoubles at hdecode
  split at hdecode
  · cases hdecode
  obtain rfl := Option.some.inj hdecode
  have hquotient (offset : ℕ) :
      rescaled (double (unsignedAt payload offset 2 / 100)) 100 = unsignedAt payload offset 2 := by
    have hlt := abs_unsignedAt_lt payload offset
    rw [← trueDiv_eq (hlt.trans (by norm_num)), rescaled_trueDiv hlt (by norm_num)]
  have hlat : f.lat = (wireOf payload).recordInDoubles.lat := congrArg FixBody.lat hf
  have hlon : f.lon = (wireOf payload).recordInDoubles.lon := congrArg FixBody.lon hf
  have hsnr : f.snr = (wireOf payload).recordInDoubles.snrDb := congrArg FixBody.snr hf
  have hsog : f.sog = unsignedAt payload 13 2 / 100 := congrArg FixBody.sog hf
  have hcog : f.cog = unsignedAt payload 15 2 / 100 := congrArg FixBody.cog hf
  have hrssi : f.rssi = signedAt payload 26 2 := by
    rw [hf]
    simp only [fixOf, rowToFix, rowOf, UplinkWire.recordInDoubles, UplinkWire.record, wireOf]
  have hseq' : f.seq = seq := congrArg FixBody.seq hf
  exact
    { nodeId := congrArg FixBody.nodeId hf
      seq := by rwa [FixBody.inDoubles, hseq']
      lat := by rw [FixBody.inDoubles, hlat, rescaled_lat]
      lon := by rw [FixBody.inDoubles, hlon, rescaled_lon]
      sog := by rw [FixBody.inDoubles, hsog, hquotient]
      cog := by rw [FixBody.inDoubles, hcog, hquotient]
      batteryMv := congrArg FixBody.batteryMv hf
      tsMs := congrArg FixBody.tsMs hf
      flags := congrArg FixBody.flags hf
      rssi := hrssi
      snr := by rw [FixBody.inDoubles, hsnr, rescaled_snr] }

/-- **What is posted tells what was received.**  In every run of the uplink system whose fixes
are those that `decode_uplink` returns, floats and all: every fix that is posted tells the fields
of the payload of one of them. -/
theorem posted_tells (steps : List Step)
    (hdecoded : ∀ u, .insert u ∈ steps → ∃ payload, decodeUplinkInDoubles payload = some u) :
    ∀ fixes ∈ (System.init.run steps).bodies, ∀ f ∈ fixes, ∃ payload u, .insert u ∈ steps ∧
      decodeUplinkInDoubles payload = some u ∧ Tells f.inDoubles payload := by
  intro fixes hfixes f hf
  obtain ⟨u, hu, hrenders⟩ := (traced_run steps).body hfixes hf
  obtain ⟨new, hnew, hsub⟩ := created_run .init steps
  have hinserted : u ∈ steps.flatMap insertedBy := by
    refine hsub.subset (List.mem_map.mpr ⟨(f.id, u), ?_, rfl⟩)
    rwa [hnew] at hu
  obtain ⟨st, hst, hmem⟩ := List.mem_flatMap.mp hinserted
  obtain rfl : st = .insert u := by
    cases st with
    | insert u' => rw [List.mem_singleton.mp hmem]
    | _ => exact absurd hmem List.not_mem_nil
  obtain ⟨payload, hpayload⟩ := hdecoded u hst
  exact ⟨payload, u, hst, hpayload, hrenders.tells hpayload⟩

/-- An insert of the fix in a payload of bytes 100, and a call of `run_once` up to its POST. -/
def uploadOfHundreds : List Step :=
  [.insert (wireOf (List.replicate 38 100)).recordInDoubles, .start 1,
    .advance ⟨.error .overflowError, 0⟩]

theorem posted_tells_hundreds :
    (System.init.run uploadOfHundreds).bodies.map List.length = [1] ∧
      ∀ fixes ∈ (System.init.run uploadOfHundreds).bodies, ∀ f ∈ fixes, ∃ payload,
        payload.length = 38 ∧ Tells f.inDoubles payload := by
  refine ⟨rfl, fun fixes hfixes f hf => ?_⟩
  obtain ⟨payload, u, -, hdecode, htells⟩ := posted_tells uploadOfHundreds
    (fun u hu => ⟨List.replicate 38 100, by
      simp only [uploadOfHundreds, List.mem_cons, Step.insert.injEq, reduceCtorEq, List.not_mem_nil,
        or_false] at hu
      rw [hu]
      rfl⟩) fixes hfixes f hf
  refine ⟨payload, ?_, htells⟩
  by_contra hlen
  rw [decodeUplinkInDoubles, if_pos hlen] at hdecode
  cases hdecode

end SrtGateway.Uplink
