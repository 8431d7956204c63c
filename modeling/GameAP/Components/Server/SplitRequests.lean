import GameAP.Components.Server.FilesComponent

/-!
# Requests that arrive in several chunks

A callback that finds the request incomplete starts no further read, and the next read would
overwrite what has been read. So `split_requests_iff`: a session handles a request that is cut
into chunks as it handles the whole one exactly when it has not been cut.
-/

namespace GameAP

namespace FileServerSess

variable {b : Binn} {cmdProcess : SessM PUnit} {env : Env} {s : FileServerSess}

/-- The session with a chunk in its buffer. -/
def received (chunk : List UInt8) (s : FileServerSess) : FileServerSess :=
  { s with pending := .none, buf := (s.buf.overwrite chunk).count chunk.length }

theorem deliver_command {chunk : List UInt8} (h : s.pending = .read) (hm : s.mode = fservAuth) :
    deliver b cmdProcess env chunk s =
      onRequest b cmdProcess chunk.length
        { s with pending := .none, buf := s.buf.overwrite chunk } := by
  unfold deliver onRead
  rw [if_pos h]
  simp only [hm]
  rfl

theorem onRequest_complete {chunk : List UInt8} (hm : s.mode = fservAuth)
    (h : ((s.buf.overwrite chunk).count chunk.length).readComplete chunk.length = true) :
    (onRequest b cmdProcess chunk.length
        { s with pending := .none, buf := s.buf.overwrite chunk }).handled =
      s.handled ++ [(received chunk s).buf.bytes.take (received chunk s).buf.length] := by
  unfold onRequest
  simp only [h, hm, if_true]
  rfl

theorem onRequest_incomplete {chunk : List UInt8}
    (h : ((s.buf.overwrite chunk).count chunk.length).readComplete chunk.length = false) :
    onRequest b cmdProcess chunk.length { s with pending := .none, buf := s.buf.overwrite chunk } =
      received chunk s := by
  unfold onRequest
  simp only [h, Bool.false_eq_true, if_false]
  rfl

/-- A request in several chunks. -/
theorem deliver_all_iff (hread : s.pending = .read) (hmode : s.mode = fservAuth)
    (hlen : s.buf.length = 0) {payload : List UInt8} (hpay : 0xFF ∉ payload)
    {chunks : List (List UInt8)} (hmsg : chunks.flatten = payload ++ endSymbols)
    (hne : ∀ c ∈ chunks, c ≠ []) :
    ((chunks.foldl (fun t c => deliver b cmdProcess env c t) s).handled =
          s.handled ++ [payload ++ endSymbols] ∧
        (chunks.foldl (fun t c => deliver b cmdProcess env c t) s).pending =
          (deliver b cmdProcess env (payload ++ endSymbols) s).pending) ↔
      chunks.length = 1 ∧ payload ≠ [] := by
  refine ReadBuffer.processed_iff (deliver b cmdProcess env) handled pending
    (fun t => t.pending = .none) hlen (fun c hc => ?_) (fun c hc => ?_) (fun c t ht => ?_) hpay hmsg
    hne
  · rw [deliver_command hread hmode, onRequest_complete hmode hc]
    show s.handled ++ [(c ++ s.buf.bytes.drop c.length).take (s.buf.length + c.length)] = _
    rw [hlen, Nat.zero_add, List.take_left]
  · rw [deliver_command hread hmode, onRequest_incomplete hc]
    exact ⟨rfl, rfl⟩
  · unfold deliver
    rw [if_neg (by rw [ht]; decide)]

end FileServerSess

/-- **Only whole requests are handled.** For a request with a payload without `0xFF` that
arrives in non-empty chunks, and in both sessions, whatever they do with it: the request is
handled once and answered as if it had come in one chunk exactly when it has, and its payload is
not empty. -/
theorem split_requests_iff {payload : List UInt8} (hpay : 0xFF ∉ payload)
    {chunks : List (List UInt8)} (hmsg : chunks.flatten = payload ++ endSymbols)
    (hne : ∀ c ∈ chunks, c ≠ []) :
    (∀ (b : Binn) (check : String → String → Bool) (s : DaemonServerSess), s.pending = .read →
      s.buf.length = 0 →
      (((chunks.foldl (fun t c => DaemonServerSess.deliver b check c t) s).handled =
            s.handled ++ [payload ++ endSymbols] ∧
          (chunks.foldl (fun t c => DaemonServerSess.deliver b check c t) s).pending =
            (DaemonServerSess.deliver b check (payload ++ endSymbols) s).pending) ↔
        chunks.length = 1 ∧ payload ≠ [])) ∧
    (∀ (b : Binn) (cmdProcess : FileServerSess.SessM PUnit) (env : FileServerSess.Env)
        (s : FileServerSess), s.pending = .read → s.mode = FileServerSess.fservAuth →
      s.buf.length = 0 →
      (((chunks.foldl (fun t c => FileServerSess.deliver b cmdProcess env c t) s).handled =
            s.handled ++ [payload ++ endSymbols] ∧
          (chunks.foldl (fun t c => FileServerSess.deliver b cmdProcess env c t) s).pending =
            (FileServerSess.deliver b cmdProcess env (payload ++ endSymbols) s).pending) ↔
        chunks.length = 1 ∧ payload ≠ [])) :=
  ⟨fun _ _ _ hread hlen => DaemonServerSess.deliver_all_iff hread hlen hpay hmsg hne,
    fun _ _ _ _ hread hmode hlen =>
      FileServerSess.deliver_all_iff hread hmode hlen hpay hmsg hne⟩

theorem split_requests_whole :
    (DaemonServerSess.deliver Binn.short (fun _ _ => true) (loginPayload ++ endSymbols)
      DaemonServerSess.new).handled = [loginPayload ++ endSymbols] := by
  have hpay : (0xFF : UInt8) ∉ loginPayload := by decide
  have hmsg : [loginPayload ++ endSymbols].flatten = loginPayload ++ endSymbols := rfl
  have hiff := (split_requests_iff hpay hmsg (by decide)).1 Binn.short (fun _ _ => true)
    DaemonServerSess.new rfl rfl
  exact (hiff.mpr ⟨rfl, by decide⟩).1

/-- The same request in two chunks is not handled. -/
theorem split_request_lost :
    ¬ ∀ (payload : List UInt8) (chunks : List (List UInt8)), 0xFF ∉ payload →
      payload.length + 4 ≤ ReadBuffer.maxLength → chunks.flatten = payload ++ endSymbols →
      (∀ c ∈ chunks, c ≠ []) →
      (∀ (b : Binn) (check : String → String → Bool) (s : DaemonServerSess), s.pending = .read →
        s.buf.length = 0 →
        (chunks.foldl (fun t c => DaemonServerSess.deliver b check c t) s).handled =
            s.handled ++ [payload ++ endSymbols] ∧
          (chunks.foldl (fun t c => DaemonServerSess.deliver b check c t) s).pending =
            (DaemonServerSess.deliver b check (payload ++ endSymbols) s).pending) ∧
      (∀ (b : Binn) (cmdProcess : FileServerSess.SessM PUnit) (env : FileServerSess.Env)
          (s : FileServerSess), s.pending = .read → s.mode = FileServerSess.fservAuth →
        s.buf.length = 0 →
        (chunks.foldl (fun t c => FileServerSess.deliver b cmdProcess env c t) s).handled =
            s.handled ++ [payload ++ endSymbols] ∧
          (chunks.foldl (fun t c => FileServerSess.deliver b cmdProcess env c t) s).pending =
            (FileServerSess.deliver b cmdProcess env (payload ++ endSymbols) s).pending) := by
  intro h
  have hlost := (h loginPayload [loginPayload, endSymbols] (by decide) (by decide) rfl (by decide)).1
    Binn.short (fun _ _ => true) DaemonServerSess.new rfl rfl
  exact absurd hlost.1 (by decide)

end GameAP
