import Rewind.Proofs.Deck.Rounds
import Rewind.Proofs.Machine.Programs

/-!
Playback beside the recording that it plays. A player hands over what the recorder took
(`rounds_play`). Where both are at the same sample with the same machine, and make their checkpoints
alike, one round leaves them so, and therefore any number of rounds does (`rounds_mirror`).
-/

namespace Rewind

open Machine Savestate

namespace Movie.Log

/-- The samples that playback has still to hand over. -/
def remaining (log : Log) : List Sample := log.inputs.toList.drop log.currentSample

theorem getElem?_of_remaining {log : Log} {s : Sample} {rest : List Sample}
    (h : log.remaining = s :: rest) : log.inputs[log.currentSample]? = some s := by
  have hs := congrArg List.head? h
  rwa [remaining, List.head?_drop, Array.getElem?_toList] at hs

theorem getElem?_of_remaining_nil {log : Log} (h : log.remaining = []) :
    log.inputs[log.currentSample]? = none := by
  have hs := congrArg List.head? h
  rwa [remaining, List.head?_drop, Array.getElem?_toList] at hs

/-- Playback that goes past samples has those behind them left. -/
theorem remaining_of_append {log log' : Log} {passed rest : List Sample}
    (h : log.remaining = passed ++ rest) (hi : log'.inputs = log.inputs)
    (hc : log'.currentSample = log.currentSample + passed.length) : log'.remaining = rest := by
  rw [remaining, hi, hc, ← List.drop_drop]
  exact (congrArg _ h).trans List.drop_left

end Movie.Log

namespace Tape

/-- The checkpoints that will be made do the same to two machines. -/
inductive InPace (program : Program) (t u : Tape Accumulator) : Prop
  /-- A checkpoint never changes the machine. -/
  | still (keepsSi : program.KeepsSi) (hasSi : t.machine.state.HasSi)
  /-- The same checkpoints are due on both sides, and none is refused over a screen. -/
  | alike (noScreen : t.config.stScreenshot = false) (noScreen' : u.config.stScreenshot = false)
      (samePace : t.checkpoints.SamePace t.movie.currentSample u.checkpoints)
      (pending : u.queue.pending.length = t.queue.pending.length)

/-- A player has the same machine as a recorder, and is at the same sample. -/
structure Mirrors (program : Program) (controllers : UInt32) (t u : Tape Accumulator) : Prop where
  records : t.Records controllers
  plays : u.Plays controllers
  cursor : u.movie.currentSample = t.movie.currentSample
  machine : u.machine.state.anonymous = t.machine.state.anonymous
  inPace : InPace program t u

variable {program : Program} {controllers : UInt32} {t u : Tape Accumulator}

/-! ## Checkpoints -/

theorem capture_alike (hm : u.machine.state.anonymous = t.machine.state.anonymous)
    (hc : u.movie.currentSample = t.movie.currentSample)
    (hp : t.checkpoints.SamePace t.movie.currentSample u.checkpoints) :
    u.capture.machine.state.anonymous = t.capture.machine.state.anonymous ∧
      t.capture.checkpoints.SamePace t.movie.currentSample u.capture.checkpoints := by
  have hbare : u.snapshot.bare = t.snapshot.bare := by
    have hb : u.machine.state.bare = t.machine.state.bare := Snapshot.bare_of_anonymous hm
    exact hb
  -- The machine that goes on from a captured state has that state without movie and screen.
  have hresumed (encoded : Encoded) (m : Accumulator) :
      (Core.skipTransfer (Core.apply encoded.snapshot m) : Accumulator).state.anonymous =
        encoded.snapshot.bare := rfl
  unfold capture
  obtain ⟨⟨e, ht⟩, e', hu⟩ | ⟨encoded, encoded', ht, hu, hended, hsame⟩ :=
    encode_alike hbare rfl rfl
  · rw [ht, hu]
    exact ⟨hm, hp⟩
  · rw [ht, hu]
    simp only
    rw [hended, hc]
    refine ⟨?_, hp.insert _ _⟩
    cases encoded.transferEnded with
    | false => exact hm
    | true =>
      exact (hresumed encoded' u.machine).trans (hsame.trans (hresumed encoded t.machine).symm)

theorem captures_alike (n : Nat) (hm : u.machine.state.anonymous = t.machine.state.anonymous)
    (hc : u.movie.currentSample = t.movie.currentSample)
    (hp : t.checkpoints.SamePace t.movie.currentSample u.checkpoints) :
    (u.captures n).machine.state.anonymous = (t.captures n).machine.state.anonymous ∧
      (t.captures n).checkpoints.SamePace t.movie.currentSample (u.captures n).checkpoints := by
  induction n generalizing t u with
  | zero => exact ⟨hm, hp⟩
  | succ n ih =>
    obtain ⟨hm', hp'⟩ := capture_alike hm hc hp
    obtain ⟨machine, checkpoints, ht⟩ := t.capture_eq
    obtain ⟨machine', checkpoints', hu⟩ := u.capture_eq
    have htm : t.capture.movie = t.movie := (congrArg Tape.movie ht :)
    have hum : u.capture.movie = u.movie := (congrArg Tape.movie hu :)
    rw [← htm] at hp'
    have hall := ih hm' (by rw [htm, hum, hc]) hp'
    rwa [htm] at hall

variable (program) in
/-- Pending checkpoints that are due on both sides leave them in pace, and the machines alike. -/
theorem drained_alike (hm : u.machine.state.anonymous = t.machine.state.anonymous)
    (hc : u.movie.currentSample = t.movie.currentSample)
    (noScreen : t.config.stScreenshot = false) (noScreen' : u.config.stScreenshot = false)
    (samePace : t.checkpoints.SamePace t.movie.currentSample u.checkpoints)
    (pending : u.queue.pending.length = t.queue.pending.length) :
    u.drained.machine.state.anonymous = t.drained.machine.state.anonymous ∧
      InPace program t.drained u.drained := by
  obtain ⟨hmachine, hpace⟩ := captures_alike (t := t.settled) (u := u.settled)
    t.queue.pending.length hm hc samePace
  have hud : u.settled.captures t.queue.pending.length = u.drained := by rw [drained, pending]
  rw [hud] at hmachine hpace
  obtain ⟨machine, checkpoints, ht⟩ := t.drained_eq
  obtain ⟨machine', checkpoints', hu⟩ := u.drained_eq
  refine ⟨hmachine, .alike ?_ ?_ ?_ ?_⟩
  · rw [ht]
    exact noScreen
  · rw [hu]
    exact noScreen'
  · have hmovie : t.drained.movie = t.movie := (congrArg Tape.movie ht :)
    rw [hmovie]
    exact hpace
  · rw [ht, hu]
    rfl

/-! ## Polls and frames -/

/-- A sample is handed over on both sides, and a checkpoint is due on both or on neither. -/
theorem InPace.handOver (h : InPace program t u) {log log' : Movie.Log}
    (hnext : log.currentSample = t.movie.currentSample + 1)
    (hc : log'.currentSample = log.currentSample) :
    InPace program (t.handOver log) (u.handOver log') := by
  cases h with
  | still keepsSi hasSi =>
    refine .still keepsSi ?_
    rw [machine_handOver]
    exact hasSi
  | alike noScreen noScreen' samePace pending =>
    have hbehind : t.movie.currentSample < log.currentSample := by omega
    have hdue := samePace.isDue hbehind
    rw [← hc] at hdue
    replace samePace := samePace.mono (Nat.le_of_lt hbehind)
    unfold Tape.handOver offer
    change InPace program
      (if t.checkpoints.isDue log.currentSample then _ else _)
      (if u.checkpoints.isDue log'.currentSample then _ else _)
    rw [hdue, hc]
    cases t.checkpoints.isDue log.currentSample with
    | false => exact .alike noScreen noScreen' samePace pending
    | true => exact .alike noScreen noScreen' samePace (congrArg Nat.succ pending)

theorem InPace.withMovie (h : InPace program t u) {log : Movie.Log}
    (hc : log.currentSample = t.movie.currentSample) (log' : Movie.Log) :
    InPace program (t.withMovie log) (u.withMovie log') := by
  cases h with
  | still keepsSi hasSi => exact .still keepsSi hasSi
  | alike noScreen noScreen' samePace pending =>
    exact .alike noScreen noScreen' (samePace.mono (Nat.le_of_eq hc.symm)) pending

theorem machine_play (p : Poll) : (t.play controllers p).machine = t.machine := by
  unfold play
  split
  · exact machine_handOver _ t
  · rfl

theorem currentSample_record (h : t.Records controllers) (p : Poll) :
    (t.record controllers p).movie.currentSample =
      t.movie.currentSample + (Poll.heard controllers [p]).length := by
  obtain ⟨hr, hm⟩ := h.record p
  have hsize := congrArg List.length hm.inputs
  rw [Array.length_toList, List.length_append, Array.length_toList] at hsize
  rw [hr.cursor, hsize, h.cursor]

/-- One poll of the same controller leaves a player beside its recorder. -/
theorem Mirrors.poll (h : Mirrors program controllers t u) (p : Poll) :
    Mirrors program controllers (t.record controllers p) (u.play controllers p) := by
  obtain ⟨hplays, -, hcursor⟩ := h.plays.play p
  refine ⟨(h.records.record p).1, hplays, ?_, ?_, ?_⟩
  · rw [hcursor, currentSample_record h.records, h.cursor]
  · rw [machine_record, machine_play]
    exact h.machine
  · unfold record play
    split
    · exact h.inPace.handOver rfl (congrArg (· + 1) h.cursor)
    · refine h.inPace.withMovie ?_ _
      rw [t.movie.arrive_eq]

theorem Mirrors.ran (h : Mirrors program controllers t u) (seen : List Sample) :
    Mirrors program controllers (t.ran (program.run t.machine seen))
      (u.ran (program.run u.machine seen)) := by
  have hcursor (log : Movie.Log) : log.vi.currentSample = log.currentSample := by
    obtain ⟨currentVi, lengthVis, hv⟩ := log.vi_eq
    rw [hv]
  refine ⟨h.records.ran _, h.plays.ran _, ?_, program.step_congr seen h.machine, ?_⟩
  · exact (hcursor _).trans (h.cursor.trans (hcursor _).symm)
  · cases h.inPace with
    | still keepsSi hasSi => exact .still keepsSi (keepsSi _ seen hasSi)
    | alike noScreen noScreen' samePace pending =>
      exact .alike noScreen noScreen' (samePace.mono (Nat.le_of_eq (hcursor _).symm)) pending

end Tape

namespace Deck

/-! ## What is handed over -/

section

variable {M H D : Type} [Core M] [Frontend H] [Storage D] {controllers : UInt32} {e : Deck M H D}
  {rest : List Sample}

theorem drain_plays (h : e.tape.Plays controllers) :
    e.drain.2.tape.Plays controllers ∧ e.drain.2.movie = e.movie := by
  obtain ⟨hrolling, hmovie, -⟩ := drain_rolling h.toRolling
  exact ⟨⟨hrolling, (congrArg (·.task.isRecording) hmovie).trans h.isRecording⟩, hmovie⟩

omit [Core M] in
/-- A poll of a controller that the movie knows takes the next of the samples that are left. -/
theorem poll_of_remaining {p p' : Poll} (h : e.tape.Plays controllers)
    (hagain : p.Again controllers p')
    (hremaining : e.movie.remaining = Poll.heard controllers [p] ++ rest) :
    (e.poll p'.index p'.live).1 = p.answer .played controllers ∧
      (e.poll p'.index p'.live).2.tape = e.tape.play controllers p ∧
      (e.poll p'.index p'.live).2.movie.remaining = rest := by
  have hnext (hr : p.reaches controllers = true) :
      e.movie.inputs[e.movie.currentSample]? = some p.live := by
    rw [Poll.heard_cons, if_pos hr] at hremaining
    exact Movie.Log.getElem?_of_remaining hremaining
  obtain ⟨ha, ht⟩ := poll_plays h hagain hnext
  obtain ⟨-, hinputs, hcursor⟩ := h.play p
  have hmovie : (e.poll p'.index p'.live).2.movie = (e.tape.play controllers p).movie :=
    congrArg Tape.movie ht
  exact ⟨ha, ht, Movie.Log.remaining_of_append hremaining (hmovie ▸ hinputs) (hmovie ▸ hcursor)⟩

omit [Core M] in
/-- Polls of the same controllers take what the recorder took. -/
theorem pollAll_plays {polls polls' : List Poll} (h : e.tape.Plays controllers)
    (hagain : List.Forall₂ (Poll.Again controllers) polls polls')
    (hremaining : e.movie.remaining = Poll.heard controllers polls ++ rest) :
    (e.pollAll polls').1 = polls.map (·.answer .played controllers) ∧
      (e.pollAll polls').2.tape.Plays controllers ∧
      (e.pollAll polls').2.movie.remaining = rest := by
  induction hagain generalizing e with
  | nil => exact ⟨rfl, h, hremaining⟩
  | @cons p p' polls polls' hp hps ih =>
    rw [← List.singleton_append, Poll.heard_append, List.append_assoc] at hremaining
    obtain ⟨ha, ht, hleft⟩ := poll_of_remaining h hp hremaining
    obtain ⟨has, hplays, hrest⟩ := ih (ht ▸ (h.play p).1) hleft
    refine ⟨?_, hplays, hrest⟩
    change (e.poll p'.index p'.live).1 :: ((e.poll p'.index p'.live).2.pollAll polls').1 = _
    rw [ha, has]
    rfl

theorem round_plays {polls polls' : List Poll} (h : e.tape.Plays controllers)
    (step : M → List Sample → M)
    (hagain : List.Forall₂ (Poll.Again controllers) polls polls')
    (hremaining : e.movie.remaining = Poll.heard controllers polls ++ rest) :
    (e.round step polls').1 = polls.map (·.answer .played controllers) ∧
      (e.round step polls').2.tape.Plays controllers ∧
      (e.round step polls').2.movie.remaining = rest := by
  obtain ⟨hdrained, hmovie⟩ := drain_plays h
  obtain ⟨ha, hplays, hleft⟩ := pollAll_plays hdrained hagain (hmovie ▸ hremaining)
  refine ⟨ha, ?_, ?_⟩
  · rw [tape_round]
    exact hplays.ran _
  · obtain ⟨currentVi, lengthVis, hv⟩ := (e.drain.2.pollAll polls').2.movie.vi_eq
    change (e.drain.2.pollAll polls').2.movie.vi.remaining = rest
    rw [hv]
    exact hleft

/-- **A player hands over what was recorded**, poll by poll, whatever is held on the controllers
that the movie knows, and whatever the machine does. -/
theorem rounds_play {frames frames' : List (List Poll)} (h : e.tape.Plays controllers)
    (step : M → List Sample → M)
    (hagain : List.Forall₂ (List.Forall₂ (Poll.Again controllers)) frames frames')
    (hremaining : e.movie.remaining = frames.flatMap (Poll.heard controllers) ++ rest) :
    (e.rounds step frames').1.map Prod.fst =
      frames.map (·.map (·.answer .played controllers)) := by
  induction hagain generalizing e with
  | nil => rfl
  | @cons polls polls' frames frames' hp hps ih =>
    rw [List.flatMap_cons, List.append_assoc] at hremaining
    obtain ⟨ha, hplays, hleft⟩ := round_plays h step hp hremaining
    change (e.round step polls').1 ::
      ((e.round step polls').2.rounds step frames').1.map Prod.fst = _
    rw [ha, ih hplays hleft]
    rfl

end

/-! ## What the machines do -/

variable {H H' D D' : Type} [Frontend H] [Frontend H'] [Storage D] [Storage D']
  {program : Program} {controllers : UInt32} {d : Deck Accumulator H D}
  {e : Deck Accumulator H' D'}

theorem drain_mirrors (h : d.tape.Mirrors program controllers e.tape) :
    d.drain.2.tape.Mirrors program controllers e.drain.2.tape := by
  have hd := (drain_recordsOn h.records).records
  obtain ⟨-, hdmovie, -⟩ := drain_rolling h.records.toRolling
  obtain ⟨he, hemovie⟩ := drain_plays h.plays
  have hcursor : e.drain.2.movie.currentSample = d.drain.2.movie.currentSample := by
    rw [hemovie, hdmovie]
    exact h.cursor
  -- What is left is that the checkpoints did the same to both machines.
  suffices hmachine : e.drain.2.machine.state.anonymous = d.drain.2.machine.state.anonymous ∧
      d.drain.2.tape.InPace program e.drain.2.tape from
    ⟨hd, he, hcursor, hmachine.1, hmachine.2⟩
  cases h.inPace with
  | still keepsSi hasSi =>
    have hdm : d.drain.2.machine = d.machine :=
      (captured_drain h.records.onlyCaptures).machine hasSi
    have hem : e.drain.2.machine = e.machine :=
      (captured_drain h.plays.onlyCaptures).machine (hasSi.of_anonymous h.machine)
    rw [hdm, hem]
    refine ⟨h.machine, .still keepsSi ?_⟩
    have hm : d.drain.2.tape.machine = d.tape.machine := hdm
    rw [hm]
    exact hasSi
  | alike noScreen noScreen' samePace pending =>
    have hdt := tape_drain_of_captures h.records.onlyCaptures noScreen
      (Movie.Log.isActive_of_isUnderway h.records.isUnderway)
    have het := tape_drain_of_captures h.plays.onlyCaptures noScreen'
      (Movie.Log.isActive_of_isUnderway h.plays.isUnderway)
    have halike := Tape.drained_alike program h.machine h.cursor noScreen noScreen' samePace
      pending
    rw [← hdt, ← het] at halike
    exact halike

theorem pollAll_mirrors {polls polls' : List Poll} {rest : List Sample}
    (h : d.tape.Mirrors program controllers e.tape)
    (hagain : List.Forall₂ (Poll.Again controllers) polls polls')
    (hremaining : e.movie.remaining = Poll.heard controllers polls ++ rest) :
    (d.pollAll polls).2.tape.Mirrors program controllers (e.pollAll polls').2.tape := by
  induction hagain generalizing d e with
  | nil => exact h
  | @cons p p' polls polls' hp hps ih =>
    rw [← List.singleton_append, Poll.heard_append, List.append_assoc] at hremaining
    obtain ⟨-, hdt, -⟩ := poll_records h.records p
    obtain ⟨-, het, hleft⟩ := poll_of_remaining h.plays hp hremaining
    exact ih (hdt ▸ het ▸ h.poll p) hleft

/-- One round leaves a player beside its recorder. -/
theorem round_mirrors {polls polls' : List Poll} {rest : List Sample}
    (h : d.tape.Mirrors program controllers e.tape)
    (hagain : List.Forall₂ (Poll.Again controllers) polls polls')
    (hremaining : e.movie.remaining = Poll.heard controllers polls ++ rest) :
    (d.round program.run polls).2.tape.Mirrors program controllers
      (e.round program.run polls').2.tape := by
  have hdrained := drain_mirrors h
  obtain ⟨hplays, hemovie⟩ := drain_plays h.plays
  rw [← hemovie] at hremaining
  obtain ⟨had, -⟩ := pollAll_records hdrained.records polls
  obtain ⟨hae, -⟩ := pollAll_plays hplays hagain hremaining
  have hseen : (e.drain.2.pollAll polls').1.map Prod.snd =
      (d.drain.2.pollAll polls).1.map Prod.snd := by
    rw [hae, had, List.map_map, List.map_map]
    rfl
  rw [tape_round, tape_round, hseen]
  exact (pollAll_mirrors hdrained hagain hremaining).ran _

/-- **A player that is beside its recorder stays there**: their machines do the same. -/
theorem rounds_mirror {frames frames' : List (List Poll)} {rest : List Sample}
    (h : d.tape.Mirrors program controllers e.tape)
    (hagain : List.Forall₂ (List.Forall₂ (Poll.Again controllers)) frames frames')
    (hremaining : e.movie.remaining = frames.flatMap (Poll.heard controllers) ++ rest) :
    (e.rounds program.run frames').1.map (·.2.state.anonymous) =
      (d.rounds program.run frames).1.map (·.2.state.anonymous) := by
  induction hagain generalizing d e with
  | nil => rfl
  | @cons polls polls' frames frames' hp hps ih =>
    rw [List.flatMap_cons, List.append_assoc] at hremaining
    have hmirrors := round_mirrors h hp hremaining
    obtain ⟨-, -, hleft⟩ := round_plays h.plays program.run hp hremaining
    change (e.round program.run polls').2.machine.state.anonymous ::
        ((e.round program.run polls').2.rounds program.run frames').1.map (·.2.state.anonymous) =
      (d.round program.run polls).2.machine.state.anonymous ::
        ((d.round program.run polls).2.rounds program.run frames).1.map (·.2.state.anonymous)
    rw [ih hmirrors hleft]
    exact congrArg (· :: _) hmirrors.machine

end Deck

end Rewind
