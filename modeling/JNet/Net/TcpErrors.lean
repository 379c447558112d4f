import JNet.Net.TcpOutput

/-! # Write errors

    Runs of a connection in which `write` may fail in any way.  `Send(Buffer&)` and
    `HandleWrite` see to it that what is left has write interest; a plain `Send`
    leaves that to `ISend`, which does it on `EAGAIN` only.  After another error
    the rest waits for nobody, and the next `Send(Buffer&)` overtakes it.
-/

namespace JNet

open TcpConn

/-! ## Runs -/

/-- Runs from `Attach`, whatever `write` returns; the second component records the
    bytes accepted so far. -/
def writeSystem (fd : Int) : LTS.System (TcpConn × Bytes) OutEvent where
  init := fun s => s = (TcpConn.attach fd, [])
  step := fun s ev s' => ev.exec s.1 = some s'.1 ∧ s'.2 = s.2 ++ ev.accepted s.1

/-- The step is no plain `Send` that writes at once and meets an error. -/
def WriteOk (s : TcpConn × Bytes) (ev : OutEvent) : Prop := ¬ ev.Strands s.1

/-- Queued bytes have write interest, so that they are tried again, and nothing has
    overtaken them. -/
structure NoneStranded (s : TcpConn × Bytes) : Prop where
  interest : s.1.output_ ≠ [] → s.1.isWriting
  order : s.1.wire ++ s.1.output_ = s.2

/-! ## Steps -/

/-- What a plain `Send` leaves after an error has no write interest. -/
theorem sendInLoop_strands {c c' : TcpConn} {message : Bytes} {rs : List WriteResult}
    (hch : c.channel_.isSome) (hstrands : TcpConn.Strands c message rs)
    (h : c.sendInLoop message rs = some c') : c'.output_ ≠ [] ∧ c'.isWriting = false := by
  obtain ⟨hempty, hquiet, hbroken⟩ := hstrands
  obtain ⟨-, c₁, n, hsend, rfl⟩ | ⟨hne, -⟩ := sendInLoop_cases hch h
  · obtain ⟨hlt, hwriting⟩ := iSend_broken hbroken hsend
    rw [appendRest_output, isWriting_appendRest]
    refine ⟨?_, hwriting.trans hquiet⟩
    intro hnil
    have hdone := List.drop_eq_nil_iff.mp (List.append_eq_nil_iff.mp hnil).2
    omega
  · exact absurd hempty hne

/-! ## Main theorem -/

/-- **No queued byte is stranded** in a run without a plain `Send` that writes at
    once and meets an error: whatever is queued has write interest, and nothing
    overtakes it.  Any further step keeps this exactly if it is no such `Send`. -/
theorem no_byte_stranded_iff (fd : Int) (s : TcpConn × Bytes)
    (hs : ((writeSystem fd).restrict WriteOk).Reachable s) (hconn : s.1.state_ = .kConnected) :
    NoneStranded s ∧
    ∀ ev s', (writeSystem fd).step s ev s' → (NoneStranded s' ↔ WriteOk s ev) := by
  have hinv : OutputInv s := by
    refine LTS.System.invariant ?_ ?_ s hs
    · intro s hinit
      rw [hinit]
      exact outputInv_attach fd
    · intro s ev s' hinv hstep
      obtain ⟨hfine, hexec, hstream⟩ := hstep
      have hnext := OutputInv.exec hinv hfine hexec
      rwa [← hstream] at hnext
  have hok := hinv (.inr hconn)
  refine ⟨⟨hok.interest, hok.stream⟩, ?_⟩
  intro ev s' hstep
  obtain ⟨hexec, hstream⟩ := hstep
  constructor
  · intro hnone hstrands
    cases ev with
    | send message rs =>
      simp only [OutEvent.exec, send, if_neg (not_not.mpr hconn)] at hexec
      obtain ⟨hleft, hquiet⟩ := sendInLoop_strands hok.channel hstrands.2 hexec
      rw [hnone.interest hleft] at hquiet
      cases hquiet
    | sendBuffer message rs => exact hstrands
    | sendOutput bytes rs => exact hstrands
    | handleWrite p rs => exact hstrands
  · intro hfine
    have hshaken : s.1.state_ ≠ .kHandShakeing := by rw [hconn]; decide
    have hconn' : s'.1.state_ = .kConnected := (exec_steady hshaken hexec).state.trans hconn
    have hnext := OutputInv.exec hinv hfine hexec (.inr hconn')
    rw [← hstream] at hnext
    exact ⟨hnext.interest, hnext.stream⟩

/-- Right after its handshake a connection still has write interest, so an error
    leaves nothing stranded. -/
theorem no_byte_stranded_early :
    NoneStranded (⟨.kConnected, [104], some ⟨5, 7#16⟩, []⟩, [104]) := by
  let sys := (writeSystem 5).restrict WriteOk
  have h0 : sys.Reachable (attach 5, []) := .start rfl
  have h1 : sys.Reachable (⟨.kConnected, [], some ⟨5, 7#16⟩, []⟩, []) :=
    .next (.handleWrite ⟨1, POLLOUT⟩ []) h0 ⟨id, rfl, rfl⟩
  have hfine : WriteOk (⟨.kConnected, [], some ⟨5, 7#16⟩, []⟩, []) (.send [104] [.error 105]) :=
    fun hstrands => absurd hstrands.2.2.1 (by decide)
  have h2 : sys.Reachable (⟨.kConnected, [104], some ⟨5, 7#16⟩, []⟩, [104]) :=
    .next (.send [104] [.error 105]) h1 ⟨hfine, rfl, rfl⟩
  exact (no_byte_stranded_iff 5 _ h2 rfl).1

/-- Once an idle write event has ended the interest, an `ENOBUFS` strands the byte
    `h`, and an `i` that is sent with `Send(Buffer&)` overtakes it. -/
theorem byte_stranded :
    ∃ s s', (writeSystem 5).Reachable s ∧ s.1.state_ = .kConnected ∧ s.1.output_ ≠ [] ∧
      s.1.isWriting = false ∧ (writeSystem 5).step s (.sendBuffer [105] [.count 1]) s' ∧
      s'.2 = [104, 105] ∧ s'.1.wire = [105] ∧ s'.1.output_ = [104] := by
  have h0 : (writeSystem 5).Reachable (attach 5, []) := .start rfl
  have h1 : (writeSystem 5).Reachable (⟨.kConnected, [], some ⟨5, 7#16⟩, []⟩, []) :=
    .next (.handleWrite ⟨1, POLLOUT⟩ []) h0 ⟨rfl, rfl⟩
  have h2 : (writeSystem 5).Reachable (⟨.kConnected, [], some ⟨5, 3#16⟩, []⟩, []) :=
    .next (.handleWrite ⟨0, 0⟩ []) h1 ⟨rfl, rfl⟩
  have h3 : (writeSystem 5).Reachable (⟨.kConnected, [104], some ⟨5, 3#16⟩, []⟩, [104]) :=
    .next (.send [104] [.error 105]) h2 ⟨rfl, rfl⟩
  exact ⟨_, (⟨.kConnected, [104], some ⟨5, 3#16⟩, [105]⟩, [104, 105]), h3, rfl, by decide,
    by decide, ⟨rfl, rfl⟩, rfl, rfl, rfl⟩

end JNet
