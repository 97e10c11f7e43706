import EspMiner.Main.StratumV2Effect

/-!
# Work generations and chain tips on a Stratum V2 connection

A clean job starts a generation.  A SetNewPrevHash for a job id without a template stores a tip
and starts none, so an immediate job that follows is published for the new tip under the old
generation: `two_tips_in_one_generation`.

`one_generation_one_tip` says that this is the only way.  An observer beside the client hears what
the pool says of tips (`TipNews`): the tip that was announced last, and the tip under which work was
last started.  Two invariants carry the proof over every run:

* the stored tip is the one announced, and the last job published since the work was invalidated
  has the tip under which work was started (`NewsTracked`);
* the generation counts the clean jobs and the invalidations, and a job that is not clean has the
  tip of the job before it (`GenerationTracked`).

An immediate job that comes while the two tips of the observer agree keeps the second.  The
generations of two jobs can then only be equal with nothing between them that counts, so their
tips are equal too, as long as the counter has not come round.
-/

namespace EspMiner

open Library

namespace StratumV2Client

variable {c : StratumV2Client}

/-- The event moves the work generation on. -/
def changesGeneration : Sv2Event → Bool
  | .published job _ => job.cleanJobs
  | .invalidated => true
  | _ => false

/-- How often the generation has moved on. -/
def generationChanges (trace : List Sv2Event) : Nat := trace.countP changesGeneration

/-- The jobs that were published, newest first. -/
def publishedJobs : List Sv2Event → List MinerJob
  | [] => []
  | .published job _ :: older => job :: publishedJobs older
  | _ :: older => publishedJobs older

/-- The last job that was published since the last invalidation. -/
def lastPublished : List Sv2Event → Option MinerJob
  | [] => none
  | .published job _ :: _ => some job
  | .invalidated :: _ => none
  | _ :: older => lastPublished older

/-- Two jobs build on the same block with the same target. -/
def SameTip (job job' : MinerJob) : Prop :=
  job.prevHash = job'.prevHash ∧ job.nbits = job'.nbits

instance (job job' : MinerJob) : Decidable (SameTip job job') :=
  inferInstanceAs (Decidable (_ ∧ _))

/-- Two jobs of one generation have one tip. -/
def KeepsTip (job job' : MinerJob) : Prop :=
  job.workGeneration = job'.workGeneration → SameTip job job'

theorem KeepsTip.symm {job job' : MinerJob} (h : KeepsTip job job') : KeepsTip job' job :=
  fun hgeneration => ⟨(h hgeneration.symm).1.symm, (h hgeneration.symm).2.symm⟩

instance (job job' : MinerJob) : Decidable (KeepsTip job job') :=
  inferInstanceAs (Decidable (_ → _))

/-- A published job has the generation of its moment, and unless it starts it,
the tip of the job before it. -/
def PublishedUnder (start : U64) (event : Sv2Event) (older : List Sv2Event) : Prop :=
  match event with
  | .published job _ =>
      job.workGeneration = nextWorkGeneration^[generationChanges (event :: older)] start ∧
        (job.cleanJobs = false → ∀ earlier, lastPublished older = some earlier →
          SameTip earlier job)
  | _ => True

/-- The generation counts the changes in the trace. -/
structure GenerationTracked (start : U64) (c : StratumV2Client) : Prop where
  generation : c.stratumWorkGeneration = nextWorkGeneration^[generationChanges c.trace] start
  recorded : Throughout (PublishedUnder start) c.trace

/-! ## Reading the trace -/

/-- The event has nothing to do with generations. -/
def Neutral : Sv2Event → Prop
  | .published _ _ | .invalidated => False
  | _ => True

theorem generationChanges_cons (event : Sv2Event) (older : List Sv2Event) :
    generationChanges (event :: older) =
      generationChanges older + if changesGeneration event then 1 else 0 :=
  List.countP_cons

theorem Neutral.changesGeneration {event : Sv2Event} (h : Neutral event) :
    StratumV2Client.changesGeneration event = false := by
  cases event with
  | published job slot => cases h
  | invalidated => cases h
  | _ => rfl

theorem generationChanges_append (newer older : List Sv2Event) :
    generationChanges (newer ++ older) = generationChanges newer + generationChanges older :=
  List.countP_append

theorem generationChanges_neutral {events : List Sv2Event} (h : ∀ event ∈ events, Neutral event) :
    generationChanges events = 0 :=
  List.countP_eq_zero.mpr fun event hevent => by simp [(h event hevent).changesGeneration]

theorem throughout_neutral {start : U64} {events older : List Sv2Event}
    (h : ∀ event ∈ events, Neutral event) (holder : Throughout (PublishedUnder start) older) :
    Throughout (PublishedUnder start) (events ++ older) := by
  induction events with
  | nil => exact holder
  | cons event events ih =>
    refine ⟨?_, ih fun e he => h e (.tail _ he)⟩
    have hneutral := h event List.mem_cons_self
    cases event with
    | published job slot => cases hneutral
    | _ => trivial

theorem mem_publishedJobs {job : MinerJob} {trace : List Sv2Event} (h : job ∈ publishedJobs trace) :
    ∃ newer slot older, trace = newer ++ .published job slot :: older := by
  induction trace with
  | nil => cases h
  | cons event trace ih =>
    cases event with
    | published first slot =>
      rcases List.mem_cons.mp h with rfl | h
      · exact ⟨[], slot, trace, rfl⟩
      · obtain ⟨newer, slot', older, rfl⟩ := ih h
        exact ⟨.published first slot :: newer, slot', older, rfl⟩
    | _ =>
      obtain ⟨newer, slot', older, rfl⟩ := ih h
      exact ⟨_ :: newer, slot', older, rfl⟩

/-- A relation between each published job and the earlier ones. -/
theorem publishedJobs_pairwise {R : MinerJob → MinerJob → Prop} {trace : List Sv2Event}
    (h : ∀ newer job slot older, trace = newer ++ .published job slot :: older →
      ∀ job' ∈ publishedJobs older, R job job') : (publishedJobs trace).Pairwise R := by
  induction trace with
  | nil => exact .nil
  | cons event trace ih =>
    have hrest : (publishedJobs trace).Pairwise R :=
      ih fun newer job slot older hsplit => h (event :: newer) job slot older (by rw [hsplit]; rfl)
    cases event with
    | published job slot => exact .cons (h [] job slot trace rfl) hrest
    | _ => exact hrest

/-! ## What the pool has said about tips -/

/-- A block to build on and its target. -/
abbrev Tip := Vector U8 32 × U32

/-- The tip that a job builds on -/
def jobTip (job : MinerJob) : Tip := (job.prevHash, job.nbits)

/-- No job with the id of the message is active. -/
def Inactive (c : StratumV2Client) (m : JobMessage) : Prop := m.jobId ∉ c.conn.activeJobIds

instance (c : StratumV2Client) (m : JobMessage) : Decidable (c.Inactive m) :=
  inferInstanceAs (Decidable (¬ _))

/-- The tip of the last SetNewPrevHash on the channel, and the tip under which the work was last
published since it was last invalidated. -/
structure TipNews where
  announced : Option Tip
  started : Option Tip

namespace TipNews

def silent : TipNews := ⟨none, none⟩

/-- A SetNewPrevHash announces its tip and starts work under it where its template is ready; a job
message that is published at once starts work under the tip announced last. -/
def hear (hashToPdiff : Vector U8 32 → U64) (c : StratumV2Client) (news : TipNews)
    (input : Input) : TipNews :=
  match input with
  | .invalidate => { news with started := none }
  | _ =>
      match c.tipMessage input, c.jobMessage hashToPdiff input with
      | some message, _ =>
          let tip := (message.prevHash, message.nbits)
          ⟨some tip, if c.TemplateReady message then some tip else news.started⟩
      | none, some m =>
          if c.Immediate m ∧ c.Inactive m then
            { news with started := news.announced }
          else news
      | none, none => news

end TipNews

/-- A job message that is published at once does not come between a SetNewPrevHash with a new tip
that named no ready template and the next that names one: work has been started under the tip
announced last, or not at all since it was invalidated. -/
def TipKept (hashToPdiff : Vector U8 32 → U64) (state : StratumV2Client × TipNews)
    (input : Input) : Prop :=
  OnSome (state.1.jobMessage hashToPdiff input) fun m =>
    state.1.Immediate m → state.1.Inactive m →
      state.2.started = none ∨ state.2.started = state.2.announced

instance (hashToPdiff : Vector U8 32 → U64) (state : StratumV2Client × TipNews) (input : Input) :
    Decidable (TipKept hashToPdiff state input) :=
  inferInstanceAs (Decidable (OnSome _ fun _ => _ → _ → _ ∨ _))

/-- What the client has stored and published is what the pool has said. -/
structure NewsTracked (state : StratumV2Client × TipNews) : Prop where
  announced : state.1.conn.hasPrevHash = true →
    state.2.announced = some (state.1.conn.prevHash, state.1.conn.prevHashNbits)
  started : ∀ job, lastPublished state.1.trace = some job → state.2.started = some (jobTip job)

theorem lastPublished_neutral {events older : List Sv2Event}
    (h : ∀ event ∈ events, Neutral event) :
    lastPublished (events ++ older) = lastPublished older := by
  induction events with
  | nil => rfl
  | cons event events ih =>
    have hneutral := h event List.mem_cons_self
    cases event with
    | published job slot => cases hneutral
    | invalidated => cases hneutral
    | _ => exact ih fun event hevent => h event (.tail _ hevent)

/-! ## Steps -/

theorem GenerationTracked.append {start : U64} {c c' : StratumV2Client}
    (h : GenerationTracked start c) (events : List Sv2Event)
    (hneutral : ∀ event ∈ events, Neutral event)
    (hgeneration : c'.stratumWorkGeneration = c.stratumWorkGeneration)
    (htrace : c'.trace = events ++ c.trace) : GenerationTracked start c' := by
  refine ⟨?_, ?_⟩
  · rw [hgeneration, htrace, generationChanges_append, generationChanges_neutral hneutral,
      Nat.zero_add]
    exact h.generation
  · rw [htrace]
    exact throughout_neutral hneutral h.recorded

/-- A publication counts itself if it is clean. -/
theorem GenerationTracked.publish {start : U64} {job : MinerJob}
    {slot : Fin MINER_JOB_POOL_SIZE} (h : GenerationTracked start c)
    (htip : job.cleanJobs = false → ∀ earlier, lastPublished c.trace = some earlier →
      SameTip earlier job) :
    GenerationTracked start ((c.setSlot slot job).stratumPublishJob slot) := by
  rw [stratumPublishJob_eq]
  have hgeneration : publishedGeneration c.stratumWorkGeneration job =
      nextWorkGeneration^[generationChanges (.published { job with
        workGeneration := publishedGeneration c.stratumWorkGeneration job } slot :: c.trace)]
          start := by
    rw [generationChanges_cons, h.generation]
    unfold publishedGeneration
    cases hclean : job.cleanJobs with
    | true =>
      simp only [changesGeneration, if_true]
      rw [Function.iterate_succ_apply']
    | false => simp [changesGeneration]
  exact ⟨hgeneration, ⟨hgeneration, htip⟩, h.recorded⟩

section Client

variable (hashToPdiff : Vector U8 32 → U64)

theorem hear_of_tipMessage {news : TipNews} {input : Input} {message : Sv2SetNewPrevHash}
    (htip : c.tipMessage input = some message) :
    TipNews.hear hashToPdiff c news input =
      ⟨some (message.prevHash, message.nbits), if c.TemplateReady message then
        some (message.prevHash, message.nbits) else news.started⟩ := by
  cases input with
  | frame msgType payload buffers =>
    unfold TipNews.hear
    dsimp only
    rw [htip]
  | submit share stack sendResult => cases htip
  | invalidate => cases htip
  | take => cases htip

theorem hear_of_jobMessage {news : TipNews} {input : Input} {m : JobMessage}
    (hmessage : c.jobMessage hashToPdiff input = some m) :
    TipNews.hear hashToPdiff c news input =
      if c.Immediate m ∧ c.Inactive m then
        { news with started := news.announced }
      else news := by
  cases input with
  | frame msgType payload buffers =>
    have hnoTip : c.tipMessage (.frame msgType payload buffers) = none := by
      rw [tipMessage, if_neg]
      rintro rfl
      rw [jobMessage, if_neg fun h => absurd h.1 (by decide),
        if_neg fun h => absurd h.1 (by decide)] at hmessage
      cases hmessage
    unfold TipNews.hear
    dsimp only
    rw [hnoTip, hmessage]
  | submit share stack sendResult => cases hmessage
  | invalidate => cases hmessage
  | take => cases hmessage

theorem hear_of_none {news : TipNews} {input : Input} (htip : c.tipMessage input = none)
    (hmessage : c.jobMessage hashToPdiff input = none) (hinput : input ≠ .invalidate) :
    TipNews.hear hashToPdiff c news input = news := by
  cases input with
  | frame msgType payload buffers =>
    unfold TipNews.hear
    dsimp only
    rw [htip, hmessage]
  | submit share stack sendResult => rfl
  | invalidate => exact absurd rfl hinput
  | take => rfl

/-- The messages of other types are no news about tips. -/
theorem hear_of_frame {news : TipNews} {msgType : U8} {payload : List U8}
    {buffers : CoinbaseBuffers} (hstandard : msgType ≠ SV2_MSG_NEW_MINING_JOB)
    (hextended : msgType ≠ SV2_MSG_NEW_EXTENDED_MINING_JOB)
    (htip : msgType ≠ SV2_MSG_SET_NEW_PREV_HASH) :
    TipNews.hear hashToPdiff c news (.frame msgType payload buffers) = news :=
  hear_of_none hashToPdiff (by rw [tipMessage, if_neg htip])
    (by rw [jobMessage, if_neg fun h => hstandard h.1, if_neg fun h => hextended h.1]) nofun

/-- Neither is a message that is rejected. -/
theorem hear_of_rejected {news : TipNews} {input : Input} {rejected : U32 × MinerJob}
    (hrejected : c.rejectedExtended input = some rejected) :
    TipNews.hear hashToPdiff c news input = news := by
  cases input with
  | frame msgType payload buffers =>
    rw [rejectedExtended] at hrejected
    split at hrejected
    · next hread =>
      obtain ⟨rfl, hread⟩ := hread
      refine hear_of_none hashToPdiff rfl ?_ (by simp)
      rw [jobMessage, if_neg fun h => absurd h.1 (by decide), if_pos ⟨rfl, hread⟩]
      generalize sv2ParseNewExtendedMiningJob payload buffers
        (c.jobPool (minerJobSlot (readU32Le payload 4))) = parsed at hrejected ⊢
      rcases parsed with ⟨message | message, job⟩
      · rfl
      · exact if_neg fun hchannel => by
          dsimp only at hrejected
          rw [if_pos hchannel] at hrejected
          cases hrejected
    · cases hrejected
  | submit share stack sendResult => cases hrejected
  | invalidate => cases hrejected
  | take => cases hrejected

theorem activatedJob_tip (conn : Sv2Conn) (message : Sv2SetNewPrevHash) (job : MinerJob) :
    jobTip (activatedJob hashToPdiff conn message job) = (message.prevHash, message.nbits) := by
  unfold activatedJob
  dsimp only
  split
  · rfl
  · split <;> rfl

/-- What is stored and published follows what the pool says. -/
theorem NewsTracked.step {state : StratumV2Client × TipNews} (h : NewsTracked state)
    (input : Input) :
    NewsTracked (watched (step hashToPdiff) (TipNews.hear hashToPdiff) state input) := by
  obtain ⟨c, news⟩ := state
  -- a step that is no news and publishes nothing
  have hquiet : ∀ c' events, c'.conn.hasPrevHash = c.conn.hasPrevHash →
      c'.conn.prevHash = c.conn.prevHash → c'.conn.prevHashNbits = c.conn.prevHashNbits →
      c'.trace = events ++ c.trace → (∀ event ∈ events, Neutral event) →
      NewsTracked (c', news) := by
    intro c' events hhas hprev hnbits htrace hneutral
    refine ⟨?_, ?_⟩
    · rw [hhas, hprev, hnbits]
      exact h.announced
    · rw [htrace, lastPublished_neutral hneutral]
      exact h.started
  by_cases hinvalidate : input = .invalidate
  · subst hinvalidate
    exact ⟨h.announced, fun job hjob => by cases hjob⟩
  have hcases := step_cases hashToPdiff c input
  change NewsTracked (c.step hashToPdiff input, TipNews.hear hashToPdiff c news input)
  generalize c.step hashToPdiff input = c' at hcases ⊢
  cases hcases with
  | unchanged hmessage htip =>
    rw [hear_of_none hashToPdiff htip hmessage hinvalidate]
    exact h
  | rejected hrejected =>
    rw [hear_of_rejected hashToPdiff hrejected]
    exact hquiet _ [] rfl rfl rfl rfl (by simp)
  | stored hmessage hlater =>
    rw [hear_of_jobMessage hashToPdiff hmessage, if_neg fun himmediate => hlater himmediate.1]
    exact hquiet _ [_] rfl rfl rfl rfl (by simp [Neutral])
  | duplicate hmessage himmediate hactive =>
    rw [hear_of_jobMessage hashToPdiff hmessage, if_neg fun hnew => hnew.2 hactive]
    exact hquiet _ [] rfl rfl rfl rfl (by simp)
  | @immediate m minNtime activeJobIds hmessage himmediate hntime hactive =>
    have hinactive : c.Inactive m := by
      intro hmem
      rw [addActiveJobId, if_pos hmem] at hactive
      cases hactive
    have hannounced := h.announced himmediate.2
    rw [hear_of_jobMessage hashToPdiff hmessage, if_pos ⟨himmediate, hinactive⟩]
    refine ⟨fun _ => hannounced, fun job hjob => ?_⟩
    rw [withImmediate, stratumPublishJob_eq] at hjob
    cases hjob
    exact hannounced
  | unknownTip htip hunknown =>
    rw [hear_of_tipMessage hashToPdiff htip, if_neg hunknown]
    exact ⟨fun _ => rfl, h.started⟩
  | @activated message htip hready =>
    rw [hear_of_tipMessage hashToPdiff htip, if_pos hready]
    refine ⟨fun _ => rfl, fun job hjob => ?_⟩
    rw [withActivated, stratumPublishJob_eq] at hjob
    cases hjob
    exact congrArg some (activatedJob_tip hashToPdiff _ message _).symm
  | target maxTarget pdiff hinput =>
    rw [hinput, hear_of_frame hashToPdiff (by decide) (by decide) (by decide)]
    exact hquiet _ [] rfl rfl rfl rfl (by simp)
  | @success _ _ _ message hinput htype hparsed hchannel =>
    rw [hinput, htype, hear_of_frame hashToPdiff (by decide) (by decide) (by decide),
      resolveShares_eq]
    refine hquiet _ (List.replicate _ .acceptedShare ++ [.successAnswer message.lastSequenceNumber])
      rfl rfl rfl (by rw [List.append_assoc]; rfl) fun event hevent => ?_
    rcases List.mem_append.mp hevent with hevent | hevent
    · rw [List.eq_of_mem_replicate hevent]
      trivial
    · rw [List.mem_singleton.mp hevent]
      trivial
  | error hinput htype hparsed hchannel =>
    rw [hinput, htype, hear_of_frame hashToPdiff (by decide) (by decide) (by decide),
      resolveShares_eq]
    exact hquiet _ [_, _] rfl rfl rfl rfl (by simp [Neutral])
  | submitted hinput hcurrent hpool =>
    rw [hinput]
    exact hquiet _ [_] rfl rfl rfl rfl (by simp [Neutral])
  | sent hinput hcurrent hpool =>
    rw [hinput]
    exact hquiet _ [_, _] rfl rfl rfl rfl (by simp [Neutral])
  | invalidated hinput => exact absurd hinput hinvalidate
  | took hinput hnotified =>
    rw [hinput]
    exact hquiet _ [] rfl rfl rfl rfl (by simp)

theorem step_generationTracked {start : U64}
    (h : GenerationTracked start c) {input : Input}
    (hkept : ∀ m, c.jobMessage hashToPdiff input = some m → c.Immediate m →
      c.Inactive m → ∀ earlier, lastPublished c.trace = some earlier →
        jobTip earlier = (c.conn.prevHash, c.conn.prevHashNbits)) :
    GenerationTracked start (c.step hashToPdiff input) := by
  have hcases := step_cases hashToPdiff c input
  generalize c.step hashToPdiff input = c' at hcases ⊢
  cases hcases with
  | unchanged hmessage htip => exact h
  | rejected hrejected => exact ⟨h.generation, h.recorded⟩
  | stored hmessage hlater => exact h.append [_] (by simp [Neutral]) rfl rfl
  | duplicate hmessage himmediate hactive => exact ⟨h.generation, h.recorded⟩
  | @immediate m minNtime activeJobIds hmessage himmediate hntime hactive =>
    refine GenerationTracked.publish ?_ ?_
    · exact h.append [.template m.jobId m.job] (by simp [Neutral]) rfl rfl
    · intro _ earlier hearlier
      have hearlier' : lastPublished c.trace = some earlier := hearlier
      have hinactive : c.Inactive m := by
        intro hmem
        rw [addActiveJobId, if_pos hmem] at hactive
        cases hactive
      exact Prod.mk.inj (hkept m hmessage himmediate hinactive earlier hearlier')
  | unknownTip htip hunknown => exact ⟨h.generation, h.recorded⟩
  | @activated message htip hready =>
    refine GenerationTracked.publish ⟨h.generation, h.recorded⟩ fun hclean => ?_
    unfold activatedJob at hclean
    dsimp only at hclean
    split at hclean
    · cases hclean
    · split at hclean <;> cases hclean
  | target maxTarget pdiff => exact ⟨h.generation, h.recorded⟩
  | @success _ _ _ message hinput htype hparsed hchannel =>
    rw [resolveShares_eq]
    have hanswered : GenerationTracked start
        (c.record (.successAnswer message.lastSequenceNumber)) :=
      h.append [_] (by simp [Neutral]) rfl rfl
    refine hanswered.append _ (fun event hevent => ?_) rfl rfl
    rw [List.eq_of_mem_replicate hevent]
    trivial
  | error hinput htype hparsed hchannel =>
    rw [resolveShares_eq]
    exact h.append [_, _] (by simp [Neutral]) rfl rfl
  | submitted hinput hcurrent hpool => exact h.append [_] (by simp [Neutral]) rfl rfl
  | sent hinput hcurrent hpool => exact h.append [_, _] (by simp [Neutral]) rfl rfl
  | invalidated hinput =>
    refine ⟨?_, trivial, h.recorded⟩
    rw [stratumInvalidateWork, record_trace, generationChanges_cons]
    simp only [changesGeneration, if_true]
    rw [Function.iterate_succ_apply', ← h.generation]
  | took hinput hnotified => exact ⟨h.generation, h.recorded⟩

/-! ## Runs -/

theorem opened_generationTracked (hopened : c.Opened) :
    GenerationTracked c.stratumWorkGeneration c := by
  refine ⟨?_, ?_⟩
  · rw [hopened.trace]
    rfl
  · rw [hopened.trace]
    trivial

theorem opened_newsTracked (hopened : c.Opened) : NewsTracked (c, .silent) := by
  refine ⟨fun hhas => ?_, fun job hjob => ?_⟩
  · rw [hopened.hasPrevHash] at hhas
    cases hhas
  · rw [hopened.trace] at hjob
    cases hjob

/-- The tip that is stored is then the tip of the last job. -/
theorem NewsTracked.kept {state : StratumV2Client × TipNews} (h : NewsTracked state)
    {input : Input} (hkept : TipKept hashToPdiff state input) (m : JobMessage)
    (hmessage : state.1.jobMessage hashToPdiff input = some m) (himmediate : state.1.Immediate m)
    (hinactive : state.1.Inactive m) (earlier : MinerJob)
    (hearlier : lastPublished state.1.trace = some earlier) :
    jobTip earlier = (state.1.conn.prevHash, state.1.conn.prevHashNbits) := by
  have hstarted := h.started earlier hearlier
  have hannounced := h.announced himmediate.2
  rw [TipKept, hmessage] at hkept
  rcases hkept himmediate hinactive with hnone | hsame
  · rw [hstarted] at hnone
    cases hnone
  · rw [hstarted, hannounced] at hsame
    exact Option.some.inj hsame

/-- Within a generation every published job has the tip of the first. -/
theorem lastPublished_sameTip {start : U64} {newer older : List Sv2Event} {job : MinerJob}
    {slot : Fin MINER_JOB_POOL_SIZE}
    (h : Throughout (PublishedUnder start) (newer ++ .published job slot :: older))
    (hchanges : generationChanges newer = 0) :
    ∃ last, lastPublished (newer ++ .published job slot :: older) = some last ∧
      SameTip job last := by
  induction newer with
  | nil => exact ⟨job, rfl, rfl, rfl⟩
  | cons event newer ih =>
    rw [generationChanges_cons] at hchanges
    obtain ⟨last, hlast, htip⟩ := ih h.2 (by omega)
    cases event with
    | published later slot' =>
      have hunclean : later.cleanJobs = false := by
        cases hclean : later.cleanJobs with
        | false => rfl
        | true => simp [changesGeneration, hclean] at hchanges
      have hsame := h.1.2 hunclean last hlast
      exact ⟨later, rfl, htip.1.trans hsame.1, htip.2.trans hsame.2⟩
    | invalidated => simp [changesGeneration] at hchanges
    | _ => exact ⟨last, hlast, htip⟩

/-- Of two published jobs with one generation, the later has the tip of the
earlier. -/
theorem sameTip_of_generation {start : U64} {newer older : List Sv2Event} {job job' : MinerJob}
    {slot slot' : Fin MINER_JOB_POOL_SIZE}
    (h : Throughout (PublishedUnder start)
      (.published job slot :: newer ++ .published job' slot' :: older))
    (hbound : generationChanges (.published job slot :: newer ++ .published job' slot' :: older) <
      2 ^ 64 - 1)
    (hgeneration : job.workGeneration = job'.workGeneration) : SameTip job' job := by
  have hearlier : job'.workGeneration =
      nextWorkGeneration^[generationChanges (.published job' slot' :: older)] start :=
    (throughout_iff.mp h (.published job slot :: newer) (.published job' slot') older rfl).1
  have hsplit := generationChanges_append (.published job slot :: newer)
    (.published job' slot' :: older)
  have hcount := nextWorkGeneration_iterate_inj hbound (by omega)
    (h.1.1.symm.trans (hgeneration.trans hearlier))
  have hnone : generationChanges (.published job slot :: newer) = 0 := by omega
  obtain ⟨last, hlast, htip⟩ := lastPublished_sameTip h hnone
  obtain rfl : job = last := Option.some.inj hlast
  exact htip

/-- **One generation, one tip.**  While no immediate job comes between a SetNewPrevHash with a new
tip that named no ready template and the next that names one, jobs of one generation build on one
block with one target, and a job for an earlier tip has lost its generation once a job for another
tip has been published. -/
theorem one_generation_one_tip {c : StratumV2Client} (hopened : c.Opened) (inputs : List Input)
    (hkept : Guarded (watched (step hashToPdiff) (TipNews.hear hashToPdiff)) (TipKept hashToPdiff)
      (c, .silent) inputs)
    (hbound : generationChanges (run (step hashToPdiff) c inputs).trace < 2 ^ 64 - 1) :
    (∀ job ∈ publishedJobs (run (step hashToPdiff) c inputs).trace,
      ∀ job' ∈ publishedJobs (run (step hashToPdiff) c inputs).trace, KeepsTip job job') ∧
      ∀ newer job slot older, (run (step hashToPdiff) c inputs).trace =
          newer ++ .published job slot :: older →
        ∀ job' ∈ publishedJobs older, ¬ SameTip job' job →
          job'.workGeneration ≠ (run (step hashToPdiff) c inputs).stratumWorkGeneration := by
  have htracked : GenerationTracked c.stratumWorkGeneration (run (step hashToPdiff) c inputs) := by
    rw [← run_watched_fst (step hashToPdiff) (TipNews.hear hashToPdiff) (c, .silent)]
    exact (Guarded.invariant
      (P := fun state => GenerationTracked c.stratumWorkGeneration state.1 ∧ NewsTracked state) _
      (fun _ _ h hok => ⟨step_generationTracked hashToPdiff h.1 (h.2.kept hashToPdiff hok),
        h.2.step hashToPdiff _⟩) hkept ⟨opened_generationTracked hopened,
          opened_newsTracked hopened⟩).1
  generalize run (step hashToPdiff) c inputs = c' at *
  -- of two publications, one is the later
  have hpair : ∀ newer job slot older, c'.trace = newer ++ .published job slot :: older →
      ∀ job' ∈ publishedJobs older, job.workGeneration = job'.workGeneration →
        SameTip job' job := by
    intro newer job slot older hsplit job' hjob' hgeneration
    obtain ⟨between, slot', before, rfl⟩ := mem_publishedJobs hjob'
    have hsuffix : Throughout (PublishedUnder c.stratumWorkGeneration)
        (.published job slot :: between ++ .published job' slot' :: before) := by
      rw [throughout_iff]
      intro newer' event older' heq
      refine throughout_iff.mp htracked.recorded (newer ++ newer') event older' ?_
      rw [hsplit, List.append_assoc, ← heq]
      rfl
    refine sameTip_of_generation hsuffix ?_ hgeneration
    rw [hsplit, generationChanges_append] at hbound
    exact Nat.lt_of_le_of_lt (Nat.le_add_left _ _) hbound
  constructor
  · have hpairwise : (publishedJobs c'.trace).Pairwise KeepsTip := by
      refine publishedJobs_pairwise fun newer job slot older hsplit job' hjob' hgeneration => ?_
      have htip := hpair newer job slot older hsplit job' hjob' hgeneration
      exact ⟨htip.1.symm, htip.2.symm⟩
    intro job hjob job' hjob'
    exact hpairwise.forall_of_forall_of_flip (fun _ _ _ => ⟨rfl, rfl⟩)
      (hpairwise.imp KeepsTip.symm) hjob hjob'
  · intro newer job slot older hsplit job' hjob' htip hcurrent
    obtain ⟨between, slot', before, rfl⟩ := mem_publishedJobs hjob'
    have hlater : job.workGeneration =
        nextWorkGeneration^[generationChanges (.published job slot ::
          (between ++ .published job' slot' :: before))] c.stratumWorkGeneration :=
      (throughout_iff.mp htracked.recorded newer (.published job slot) _ hsplit).1
    have hearlier : job'.workGeneration =
        nextWorkGeneration^[generationChanges (.published job' slot' :: before)]
          c.stratumWorkGeneration :=
      (throughout_iff.mp htracked.recorded (newer ++ .published job slot :: between)
        (.published job' slot') before (by rw [hsplit, List.append_assoc]; rfl)).1
    have htotal : generationChanges c'.trace = generationChanges newer +
        generationChanges (.published job slot :: between) +
          generationChanges (.published job' slot' :: before) := by
      rw [hsplit, generationChanges_append, ← List.cons_append, generationChanges_append,
        Nat.add_assoc]
    -- the generation of the earlier job would be the present one
    have hcount := nextWorkGeneration_iterate_inj hbound (by omega)
      (htracked.generation.symm.trans (hcurrent.symm.trans hearlier))
    have hsame : job.workGeneration = job'.workGeneration := by
      rw [hlater, hearlier, ← List.cons_append, generationChanges_append]
      congr 2
      omega
    exact htip (hpair newer job slot _ hsplit job' hjob' hsame)

end Client

/-- A template and its activation, the same tip again for a job id without a template, an immediate
job, another tip without a template, and the template and activation for it. -/
def oneTipInputs : List Input :=
  [newMiningJobFrame 0 none, setNewPrevHashFrame 0 0x11, setNewPrevHashFrame 9 0x11,
    newMiningJobFrame 1 (some 1700000001), setNewPrevHashFrame 9 0x22, newMiningJobFrame 2 none,
    setNewPrevHashFrame 2 0x22]

theorem one_generation_one_tip_of_immediate :
    (publishedJobs (run (step fun _ => 0) (openChannel .standard) oneTipInputs).trace).length = 3 ∧
      ∀ job ∈ publishedJobs (run (step fun _ => 0) (openChannel .standard) oneTipInputs).trace,
        ∀ job' ∈ publishedJobs (run (step fun _ => 0) (openChannel .standard) oneTipInputs).trace,
          KeepsTip job job' :=
  ⟨by decide +kernel, (one_generation_one_tip (fun _ => 0) (openChannel_opened .standard)
    oneTipInputs (by decide +kernel) (by decide +kernel)).1⟩

/-- A SetNewPrevHash for job id 9, which has no template, before the immediate job. -/
def twoTipsInputs : List Input :=
  [newMiningJobFrame 0 none, setNewPrevHashFrame 0 0x11, setNewPrevHashFrame 9 0x22,
    newMiningJobFrame 1 (some 1700000001)]

/-- The two jobs have the same generation and different tips. -/
theorem two_tips_in_one_generation :
    ¬ ∀ job ∈ publishedJobs (run (step fun _ => 0) (openChannel .standard) twoTipsInputs).trace,
      ∀ job' ∈ publishedJobs (run (step fun _ => 0) (openChannel .standard) twoTipsInputs).trace,
        KeepsTip job job' := by
  decide +kernel

end StratumV2Client

end EspMiner
