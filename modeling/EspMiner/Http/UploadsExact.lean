import EspMiner.Http.Uploads
import EspMiner.Library.Run

/-!
# What an upload leaves behind

Every path of the two handlers ends with the guard released or retained.  The firmware that
is selected was written exactly; the web interface is written at the end of its partition,
so only a body of the size of the partition starts at offset 0.
-/

namespace EspMiner

variable {m : UpdateMachine}

open Library UpdateMachine

/-! ## The guard over a run -/

def UpdateEvent.isAcquired : UpdateEvent → Bool
  | .acquire acquired => acquired
  | _ => false

def UpdateEvent.isRelease : UpdateEvent → Bool
  | .release _ => true
  | _ => false

/-- The guard was acquired once, and is neither released nor retained. -/
structure GuardHeld (guard : BzmOtaGuard) (events : List UpdateEvent) : Prop where
  guard : guard = ⟨true, false⟩
  acquired : events.countP UpdateEvent.isAcquired = 1
  released : events.countP UpdateEvent.isRelease = 0
  running : .restart ∉ events

theorem GuardHeld.record {guard : BzmOtaGuard} {events : List UpdateEvent}
    (h : GuardHeld guard events) {event : UpdateEvent} (hacquired : event.isAcquired = false)
    (hrelease : event.isRelease = false) (hrestart : event ≠ .restart) :
    GuardHeld guard (event :: events) where
  guard := h.guard
  acquired := by rw [List.countP_cons, hacquired, h.acquired]; rfl
  released := by rw [List.countP_cons, hrelease, h.released]; rfl
  running := by
    rw [List.mem_cons, not_or]
    exact ⟨fun heq => hrestart heq.symm, h.running⟩

/-- How a handler ends.  With the final reply the guard is retained, and the restart is what
it did last; on every other path the guard was not acquired, or it was released once and no
update is shown any more. -/
def GuardSettled (reply : HttpReply) (m : UpdateMachine) : Prop :=
  match reply with
  | .sent _ =>
      m.events.countP UpdateEvent.isAcquired = 1 ∧ m.events.countP UpdateEvent.isRelease = 0 ∧
        m.guard.retainedForReboot = true ∧ m.events.head? = some .restart
  | .error _ _ =>
      m.guard.retainedForReboot = false ∧ .restart ∉ m.events ∧
        (m.events.countP UpdateEvent.isAcquired = 0 ∧ m.events.countP UpdateEvent.isRelease = 0 ∨
          m.events.countP UpdateEvent.isAcquired = 1 ∧
            m.events.countP UpdateEvent.isRelease = 1 ∧ m.system.isFirmwareUpdate = false)

section Guard

variable {E : UpdateMachine → Prop}

theorem wp_record (event : UpdateEvent) {Q : PUnit → UpdateMachine → Prop} :
    Wp (modify (record event) : UpdateHandler PUnit) Q E m ↔ Q ⟨⟩ (m.record event) := Iff.rfl

theorem wp_setStatus (status : String) {Q : PUnit → UpdateMachine → Prop} :
    Wp (modify (setStatus status) : UpdateHandler PUnit) Q E m ↔ Q ⟨⟩ (m.setStatus status) :=
  Iff.rfl

theorem failUpdate_spec (h : GuardHeld m.guard m.events) (released : Bool) (error : Nat)
    (message : String) :
    Wp (failUpdate released error message) (fun reply m' =>
      (∃ status text, reply = .error status text) ∧ GuardSettled reply m' ∧
        m'.events = .release released :: m.events) E m := by
  have hsettled (status : Nat) (text : String) (system : FirmwareUpdate)
      (hupdate : system.isFirmwareUpdate = false) :
      GuardSettled (.error status text)
        ⟨system, ⟨false, false⟩, m.unread, .release released :: m.events⟩ := by
    refine ⟨rfl, ?_, .inr ⟨?_, ?_, hupdate⟩⟩
    · rw [List.mem_cons, not_or]
      exact ⟨nofun, h.running⟩
    · rw [List.countP_cons, h.acquired]
      rfl
    · rw [List.countP_cons, h.released]
      rfl
  rw [failUpdate, wp_bind, wp_modify, bzmOtaErrorAfterRelease, wp_bind, bzmOtaGuardRelease,
    wp_bind, wp_get]
  have hguard : (m.setFirmwareUpdate false).guard = ⟨true, false⟩ := h.guard
  rw [hguard, if_neg (by simp), wp_bind, wp_modify, wp_bind, wp_modify, wp_pure]
  cases released with
  | true => exact ⟨⟨_, _, rfl⟩, hsettled _ _ _ rfl, rfl⟩
  | false => exact ⟨⟨_, _, rfl⟩, hsettled _ _ _ rfl, rfl⟩

theorem retain_spec (h : GuardHeld m.guard m.events) {Q : Bool → UpdateMachine → Prop}
    (hQ : Q true (m.setGuard ⟨true, true⟩)) : Wp bzmOtaGuardRetainForReboot Q E m := by
  rw [bzmOtaGuardRetainForReboot, wp_bind, wp_get, h.guard, if_neg (by simp)]
  exact hQ

/-- A handler that holds the guard has done nothing else yet. -/
theorem beginUpload_spec {o : UploadOutcomes} {filename : String}
    {upload : UpdateHandler HttpReply} {Q : HttpReply → UpdateMachine → Prop}
    (system : FirmwareUpdate) (request : UploadRequest)
    (hrefused : o.networkAllowed = false ∨ o.apMode = true ∨ o.acquired = false →
      ∀ status text m, m.events = [] ∨ m.events = [.acquire false] →
        GuardSettled (.error status text) m → Q (.error status text) m)
    (hupload : ∀ m, GuardHeld m.guard m.events → m.events = [.acquire true] →
      m.unread = request.body → Wp upload Q E m) :
    Wp (beginUpload o filename upload) Q E (.start system request) := by
  have hidle (events : List UpdateEvent) (hevents : events = [] ∨ events = [.acquire false])
      (status : Nat) (text : String) :
      GuardSettled (.error status text) ⟨system, ⟨false, false⟩, request.body, events⟩ := by
    rcases hevents with rfl | rfl
    · exact ⟨rfl, nofun, .inl ⟨rfl, rfl⟩⟩
    · exact ⟨rfl, nofun, .inl ⟨rfl, rfl⟩⟩
  rw [beginUpload]
  split
  · next hnetwork => exact hrefused (.inl hnetwork) _ _ _ (.inl rfl) (hidle _ (.inl rfl) _ _)
  split
  · next hmode => exact hrefused (.inr (.inl hmode)) _ _ _ (.inl rfl) (hidle _ (.inl rfl) _ _)
  cases hacquired : o.acquired with
  | false =>
    exact hrefused (.inr (.inr hacquired)) _ _ _ (.inr rfl) (hidle _ (.inr rfl) _ _)
  | true => exact hupload _ ⟨rfl, rfl, rfl, nofun⟩ rfl rfl

end Guard

/-! ## Receiving -/

/-- The results of `httpd_req_recv` that are no timeouts. -/
def RecvResult.counts : RecvResult → Bool
  | .timeout => false
  | _ => true

/-- A loop in which writing each part keeps `I` of what was written receives the whole body,
or fails, or waits after fewer results than there are bytes. -/
theorem receiveBody_spec {contentLen : Nat} {body : List U8}
    {write : Int → List U8 → UpdateHandler Bool}
    {I : List U8 → BzmOtaGuard → List UpdateEvent → Prop}
    {J : BzmOtaGuard → List UpdateEvent → Prop}
    (hwrite : ∀ done bytes rest remaining m, body = done ++ (bytes ++ rest) →
      remaining = ((bytes ++ rest).length : Int) → I done m.guard m.events →
      Wp (write remaining bytes) (fun written m' => m'.unread = m.unread ∧
        if written then I (done ++ bytes) m'.guard m'.events else J m'.guard m'.events)
        (fun _ => False) m)
    (recvs : List RecvResult)
    (hfailed : .failed ∈ recvs → ∀ done guard events, I done guard events → J guard events)
    (done : List U8) (m : UpdateMachine) (hbody : body = done ++ m.unread)
    (hI : I done m.guard m.events) :
    Wp (receiveBody contentLen write recvs m.unread.length)
      (fun status m' => match status with
        | none => I body m'.guard m'.events
        | some _ => J m'.guard m'.events)
      (fun m' => (∃ done, I done m'.guard m'.events) ∧
        recvs.countP RecvResult.counts < m.unread.length) m := by
  have hall {done : List U8} {m : UpdateMachine} (hbody : body = done ++ m.unread)
      (hI : I done m.guard m.events) (hempty : ¬ (m.unread.length : Int) > 0) :
      I body m.guard m.events := by
    have hnil : m.unread = [] := List.length_eq_zero_iff.mp (by omega)
    rw [hbody, hnil, List.append_nil]
    exact hI
  induction recvs generalizing done m with
  | nil =>
    rw [receiveBody]
    split
    · next hremaining => exact ⟨⟨done, hI⟩, by simpa using hremaining⟩
    · next hempty => exact hall hbody hI hempty
  | cons result recvs ih =>
    have hfailed' : .failed ∈ recvs → ∀ done guard events, I done guard events → J guard events :=
      fun hmem => hfailed (List.mem_cons_of_mem _ hmem)
    rw [receiveBody.eq_def]
    dsimp only
    split
    · next hremaining =>
      cases result with
      | timeout =>
        refine (ih hfailed' done m hbody hI).mono (fun _ _ h => h) fun m' h => ⟨h.1, ?_⟩
        rw [List.countP_cons]
        exact h.2
      | failed => exact hfailed List.mem_cons_self _ _ _ hI
      | received more =>
        let count := min (more + 1) (min (m.unread.length : Int).toNat 1000)
        have hcount : 0 < count ∧ count ≤ m.unread.length := by omega
        have hsplit : body = done ++ (m.unread.take count ++ m.unread.drop count) := by
          rw [List.take_append_drop]
          exact hbody
        have hlength : (m.unread.length : Int)
            = (m.unread.take count ++ m.unread.drop count).length := by
          rw [List.take_append_drop]
        dsimp only
        rw [wp_bind, httpdReqRecv, wp_bind, wp_get, wp_bind, wp_modify, wp_pure, wp_bind]
        refine (hwrite done (m.unread.take count) (m.unread.drop count) _
          { m with unread := m.unread.drop count } hsplit hlength hI).mono
          (fun written m' hm' => ?_) fun _ h => h.elim
        obtain ⟨hunread, hwritten⟩ := hm'
        cases written with
        | false => exact hwritten
        | true =>
          have hunread : m'.unread = m.unread.drop count := hunread
          have hremaining : (m.unread.length : Int) - (m.unread.take count).length
              = m'.unread.length := by
            rw [hunread, List.length_take, List.length_drop]
            omega
          have hbody' : body = (done ++ m.unread.take count) ++ m'.unread := by
            rw [hunread, List.append_assoc]
            exact hsplit
          rw [if_pos rfl, wp_bind, wp_setStatus]
          let next := m'.setStatus s!"Working ({updatePercentage m.unread.length contentLen}%)"
          change Wp (receiveBody contentLen write recvs
            ((m.unread.length : Int) - (m.unread.take count).length)) _ _ next
          rw [hremaining]
          refine (ih hfailed' _ next hbody' hwritten).mono (fun _ _ h => h)
            fun _ hwaits => ⟨hwaits.1, ?_⟩
          have hleft : next.unread = m.unread.drop count := hunread
          have hfew := hwaits.2
          rw [hleft, List.length_drop] at hfew
          have hcounts : RecvResult.counts (.received more) = true := rfl
          rw [List.countP_cons, if_pos hcounts]
          omega
    · next hempty => exact hall hbody hI hempty

theorem remainingOf_eq {contentLen : Nat} (h : contentLen < 2 ^ 31) :
    remainingOf contentLen = contentLen := by
  rw [remainingOf, BitVec.toInt_eq_toNat_of_lt (by rw [BitVec.toNat_ofNat]; omega),
    BitVec.toNat_ofNat, Nat.mod_eq_of_lt (by omega)]

theorem ofInt_remainingOf (request : UploadRequest) :
    (BitVec.ofInt 32 (remainingOf request.contentLen)).toNat = request.contentLen := by
  rw [remainingOf, BitVec.ofInt_toInt, BitVec.toNat_ofNat]
  exact Nat.mod_eq_of_lt request.fits

/-- A handler that waits for the body holds the guard, and too few results came for it to go
on. -/
def StillReceiving (ok : UpdateEvent → List UpdateEvent → Prop) (recvs : List RecvResult)
    (request : UploadRequest) (m : UpdateMachine) : Prop :=
  GuardHeld m.guard m.events ∧ Throughout ok m.events ∧
    recvs.countP RecvResult.counts < request.contentLen

/-! ## The firmware -/

/-- The bytes given to `esp_ota_write`. -/
def otaWritten : List UpdateEvent → List U8
  | [] => []
  | .otaWrite bytes _ :: older => otaWritten older ++ bytes
  | _ :: older => otaWritten older

/-- The boot partition is switched after `esp_ota_end` accepted what was written, which is
the body. -/
def BootSwitched (body : List U8) : UpdateEvent → List UpdateEvent → Prop
  | .setBootPartition _, older =>
      ∃ writes, older = .otaEnd true :: writes ∧ otaWritten writes = body
  | _, _ => True

section Ota

variable {body : List U8} {E : UpdateMachine → Prop}

/-- The image is being written. -/
structure OtaWriting (body done : List U8) (guard : BzmOtaGuard) (events : List UpdateEvent) :
    Prop where
  held : GuardHeld guard events
  switched : Throughout (BootSwitched body) events
  written : otaWritten events = done

theorem writeOta_spec (write : Nat → Bool) {contentLen : Nat} {done bytes : List U8}
    (remaining : Int) (h : OtaWriting body done m.guard m.events) :
    Wp (writeOta contentLen write remaining bytes) (fun written m' => m'.unread = m.unread ∧
      if written then OtaWriting body (done ++ bytes) m'.guard m'.events
      else GuardHeld m'.guard m'.events ∧ Throughout (BootSwitched body) m'.events) E m := by
  rw [writeOta, wp_bind, wp_record, wp_pure]
  have hheld (written : Bool) : GuardHeld m.guard (.otaWrite bytes written :: m.events) :=
    h.held.record rfl rfl nofun
  have hswitched (written : Bool) :
      Throughout (BootSwitched body) (.otaWrite bytes written :: m.events) :=
    ⟨trivial, h.switched⟩
  have hwritten : otaWritten (.otaWrite bytes true :: m.events) = done ++ bytes := by
    rw [otaWritten, h.written]
  refine ⟨rfl, ?_⟩
  cases write ((contentLen : Int) - remaining).toNat with
  | true => exact ⟨hheld true, hswitched true, hwritten⟩
  | false => exact ⟨hheld false, hswitched false⟩

/-- Every end of the firmware's handler: with the final reply the boot partition was
selected. -/
def OtaEnds (body : List U8) (reply : HttpReply) (m : UpdateMachine) : Prop :=
  GuardSettled reply m ∧ Throughout (BootSwitched body) m.events ∧
    ((∃ text, reply = .sent text) → .setBootPartition true ∈ m.events)

theorem failOta_spec (h : GuardHeld m.guard m.events)
    (hswitched : Throughout (BootSwitched body) m.events) (released : Bool) (error : Nat)
    (message : String) : Wp (failUpdate released error message) (OtaEnds body) E m := by
  refine (failUpdate_spec h released error message).mono (fun reply m' hm' => ?_) fun _ h => h
  obtain ⟨⟨status, text, rfl⟩, hsettled, hevents⟩ := hm'
  refine ⟨hsettled, ?_, fun hsent => nomatch hsent⟩
  rw [hevents]
  exact ⟨trivial, hswitched⟩

theorem finishOta_spec (o : OtaOutcomes) (h : OtaWriting body body m.guard m.events) :
    Wp (finishOta o) (OtaEnds body) E m := by
  have hended (valid : Bool) : GuardHeld m.guard (.otaEnd valid :: m.events) :=
    h.held.record rfl rfl nofun
  have hunswitched (valid : Bool) : Throughout (BootSwitched body) (.otaEnd valid :: m.events) :=
    ⟨trivial, h.switched⟩
  rw [finishOta, wp_bind, otaEnd, wp_bind, wp_record]
  cases hvalid : o.valid with
  | false => exact failOta_spec (hended false) (hunswitched false) _ _ _
  | true =>
    have hselected (selected : Bool) :
        GuardHeld m.guard (.setBootPartition selected :: .otaEnd true :: m.events) :=
      (hended true).record rfl rfl nofun
    have hswitched (selected : Bool) : Throughout (BootSwitched body)
        (.setBootPartition selected :: .otaEnd true :: m.events) :=
      ⟨⟨m.events, rfl, h.written⟩, trivial, h.switched⟩
    rw [if_pos rfl, wp_bind, wp_record, wp_pure]
    cases o.selected with
    | false => exact failOta_spec (hselected false) (hswitched false) _ _ _
    | true =>
      rw [if_pos rfl, wp_bind, wp_setStatus, wp_bind]
      refine retain_spec (hselected true) ?_
      have hreset : GuardHeld m.guard (.useCustomWww false ::
          .setBootPartition true :: .otaEnd true :: m.events) :=
        (hselected true).record rfl rfl nofun
      have hdone : GuardHeld m.guard (.lastFwFingerprint "" :: .useCustomWww false ::
          .setBootPartition true :: .otaEnd true :: m.events) := hreset.record rfl rfl nofun
      rw [if_pos rfl]
      refine ⟨⟨?_, ?_, rfl, rfl⟩, ⟨trivial, trivial, trivial, hswitched true⟩, fun _ => ?_⟩
      · exact hdone.acquired
      · exact hdone.released
      · exact List.mem_cons_of_mem _ (List.mem_cons_of_mem _
          (List.mem_cons_of_mem _ List.mem_cons_self))

/-- **The firmware is selected only when it was written exactly**, and the guard is settled,
in every run of its handler. -/
theorem postOtaUpdate_spec (partition : Option FlashPartition) (o : OtaOutcomes)
    (system : FirmwareUpdate) (request : UploadRequest) :
    Wp (postOtaUpdate partition o request.contentLen) (OtaEnds request.body)
      (StillReceiving (BootSwitched request.body) o.recvs request) (.start system request) := by
  rw [postOtaUpdate]
  refine beginUpload_spec system request (fun _ status text m hevents hsettled => ?_)
    fun m hheld hevents hunread => ?_
  · refine ⟨hsettled, ?_, fun hsent => nomatch hsent⟩
    rcases hevents with hevents | hevents
    · rw [hevents]
      trivial
    · rw [hevents]
      exact ⟨trivial, trivial⟩
  have hacquired : Throughout (BootSwitched request.body) m.events := by
    rw [hevents]
    exact ⟨trivial, trivial⟩
  rw [updateOta, wp_bind]
  match partition with
  | none => exact failOta_spec hheld hacquired _ _ _
  | some partition =>
    change Wp (otaBegin (some partition.size) o.begun request.contentLen) _ _ m
    rw [otaBegin]
    split
    · exact failOta_spec hheld hacquired _ _ _
    · next hfits =>
      obtain ⟨-, hsize⟩ := not_or.mp hfits
      have hbegun (begun : Bool) :
          GuardHeld m.guard (.otaBegin request.contentLen begun :: m.events) :=
        hheld.record rfl rfl nofun
      have hswitched (begun : Bool) : Throughout (BootSwitched request.body)
          (.otaBegin request.contentLen begun :: m.events) := ⟨trivial, hacquired⟩
      rw [wp_bind, wp_record, wp_pure]
      cases o.begun with
      | false => exact failOta_spec (hbegun false) (hswitched false) _ _ _
      | true =>
        have hremaining : remainingOf request.contentLen
            = ((m.record (.otaBegin request.contentLen true)).unread.length : Int) := by
          have hlength : (m.record (.otaBegin request.contentLen true)).unread.length
              = request.contentLen := congrArg List.length hunread
          have hflash := partition.inFlash
          rw [hlength]
          exact remainingOf_eq (by rw [FlashPartition.size] at hsize; omega)
        have hwriting : OtaWriting request.body []
            m.guard (.otaBegin request.contentLen true :: m.events) :=
          ⟨hbegun true, hswitched true, by rw [hevents]; rfl⟩
        rw [if_pos rfl, wp_bind, hremaining]
        refine (receiveBody_spec (I := OtaWriting request.body)
          (J := fun guard events => GuardHeld guard events ∧
            Throughout (BootSwitched request.body) events)
          (fun _ _ _ remaining _ _ _ hm' => writeOta_spec o.write remaining hm') o.recvs
          (fun _ _ _ _ hI => ⟨hI.held, hI.switched⟩) [] (m.record _) hunread.symm hwriting).mono
          (fun status m' hm' => ?_) fun m' hm' => ?_
        · cases status with
          | none => exact finishOta_spec o hm'
          | some status =>
            rw [wp_bind, wp_record, wp_bind, wp_setStatus]
            have haborted : Throughout (BootSwitched request.body) (.otaAbort :: m'.events) :=
              ⟨trivial, hm'.2⟩
            have hheld : GuardHeld m'.guard (.otaAbort :: m'.events) :=
              hm'.1.record rfl rfl nofun
            exact failOta_spec hheld haborted _ _ _
        · obtain ⟨⟨done, hI⟩, hfew⟩ := hm'
          refine ⟨hI.held, hI.switched, ?_⟩
          have hlength : m.unread.length = request.contentLen := congrArg List.length hunread
          exact hlength ▸ hfew

end Ota

/-! ## The web interface -/

/-- A range of the flash, erased. -/
def eraseBytes (contents : List U8) (offset size : Nat) : List U8 :=
  contents.take offset ++ List.replicate (min size (contents.length - offset)) 0xFF ++
    contents.drop (offset + size)

/-- The flash after a write, which only clears bits. -/
def programBytes (contents : List U8) (offset : Nat) (bytes : List U8) : List U8 :=
  contents.take offset ++ List.zipWith (· &&& ·) (contents.drop offset) bytes ++
    contents.drop (offset + bytes.length)

/-- What a partition holds after what was done. -/
def wwwAfter (contents : List U8) : List UpdateEvent → List U8
  | [] => contents
  | .eraseRange offset size .ok :: older => eraseBytes (wwwAfter contents older) offset size
  | .eraseRange _ _ (.failed left) :: _ => left
  | .partitionWrite offset bytes .ok :: older =>
      programBytes (wwwAfter contents older) offset bytes
  | .partitionWrite _ _ (.failed left) :: _ => left
  | _ :: older => wwwAfter contents older

def UpdateEvent.isWrite : UpdateEvent → Bool
  | .partitionWrite _ _ _ => true
  | _ => false

/-- Before anything was written, the whole partition was erased. -/
def ErasedFirst (partition : FlashPartition) (events : List UpdateEvent) : Prop :=
  ∃ erases, erases <:+ events ∧ (∀ event ∈ erases, event.isWrite = false) ∧
    wwwAfter partition.contents erases = List.replicate partition.size 0xFF

/-- The partition, erased first, holds the body from an offset on, and is erased elsewhere. -/
def HoldsAt (partition : FlashPartition) (offset : Nat) (body : List U8)
    (events : List UpdateEvent) : Prop :=
  ErasedFirst partition events ∧
    wwwAfter partition.contents events = List.replicate offset 0xFF ++ body ++
      List.replicate (partition.size - offset - body.length) 0xFF

/-- The custom web interface is used when the partition holds a body that is not empty from
offset 0 on. -/
def WwwUsed (partition : Option FlashPartition) (body : List U8) :
    UpdateEvent → List UpdateEvent → Prop
  | .useCustomWww true, older =>
      ∃ found, partition = some found ∧ body ≠ [] ∧ HoldsAt found 0 body older
  | _, _ => True

/-- What is true instead: the body lies at the end of the partition. -/
def WwwWritten (partition : Option FlashPartition) (body : List U8) :
    UpdateEvent → List UpdateEvent → Prop
  | .useCustomWww true, older =>
      ∃ found, partition = some found ∧ body.length ≤ found.size ∧
        HoldsAt found (found.size - body.length) body older
  | _, _ => True

theorem zipWith_and_replicate {bytes : List U8} {count : Nat} (h : bytes.length ≤ count) :
    List.zipWith (· &&& ·) (List.replicate count (0xFF : U8)) bytes = bytes := by
  induction bytes generalizing count with
  | nil => rw [List.zipWith_nil_right]
  | cons byte bytes ih =>
    obtain ⟨count, rfl⟩ : ∃ left, count = left + 1 := ⟨count - 1, by simp at h; omega⟩
    have hones : (0xFF : U8) &&& byte = byte := by
      have hall : (0xFF : U8) = BitVec.allOnes 8 := rfl
      rw [hall, BitVec.allOnes_and]
    rw [List.replicate_succ, List.zipWith_cons_cons, hones,
      ih (by simpa using h)]

/-- Writing to a part that is erased. -/
theorem programBytes_erased (front : List U8) {bytes : List U8} {count : Nat}
    (h : bytes.length ≤ count) :
    programBytes (front ++ List.replicate count 0xFF) front.length bytes
      = front ++ bytes ++ List.replicate (count - bytes.length) 0xFF := by
  rw [programBytes, List.take_left, List.drop_left, zipWith_and_replicate h, List.drop_append,
    List.drop_of_length_le (by omega), List.drop_replicate, List.nil_append,
    Nat.add_sub_cancel_left]

/-- Erasing what follows a part that is erased. -/
theorem eraseBytes_next (contents : List U8) {count size : Nat} (hcount : count ≤ contents.length) :
    eraseBytes (List.replicate count 0xFF ++ contents.drop count) count size
      = List.replicate (min (count + size) contents.length) 0xFF ++
        contents.drop (count + size) := by
  have hfront : (List.replicate count (0xFF : U8)).length = count := List.length_replicate ..
  have hlength : (List.replicate count (0xFF : U8) ++ contents.drop count).length
      = contents.length := by
    rw [List.length_append, hfront, List.length_drop]
    omega
  have hsum : min (count + size) contents.length
      = count + min size (contents.length - count) := by omega
  rw [eraseBytes, hlength, List.take_left' hfront, List.drop_append, hfront,
    List.drop_of_length_le (by omega), List.nil_append, List.drop_drop, hsum,
    Nat.add_sub_cancel' (Nat.le_add_right count size), ← List.replicate_append_replicate]

section Www

variable {partition : FlashPartition} {body : List U8} {E : UpdateMachine → Prop}

/-- The first `count` bytes of the partition are erased, and nothing else was done. -/
structure WwwErasing (partition : FlashPartition) (body : List U8) (count : Nat)
    (guard : BzmOtaGuard) (events : List UpdateEvent) : Prop where
  held : GuardHeld guard events
  written : Throughout (WwwWritten (some partition) body) events
  erases : ∀ event ∈ events, event.isWrite = false
  contents : wwwAfter partition.contents events
    = List.replicate (min count partition.size) 0xFF ++ partition.contents.drop count

/-- A part of the body is at its place, and what follows it is erased. -/
structure WwwWriting (partition : FlashPartition) (body done : List U8) (guard : BzmOtaGuard)
    (events : List UpdateEvent) : Prop where
  held : GuardHeld guard events
  written : Throughout (WwwWritten (some partition) body) events
  erased : ErasedFirst partition events
  contents : wwwAfter partition.contents events
    = List.replicate (partition.size - body.length) 0xFF ++ done ++
      List.replicate (body.length - done.length) 0xFF

theorem WwwErasing.next {count size : Nat} {guard : BzmOtaGuard} {events : List UpdateEvent}
    (h : WwwErasing partition body count guard events) (hcount : count < partition.size)
    (hsize : size = min 65536 (partition.size - count)) :
    WwwErasing partition body (count + 65536) guard (.eraseRange count size .ok :: events) where
  held := h.held.record rfl rfl nofun
  written := ⟨trivial, h.written⟩
  erases := by
    intro event hevent
    rcases List.mem_cons.mp hevent with rfl | hold
    · rfl
    · exact h.erases event hold
  contents := by
    have hlength : partition.contents.length = partition.size := rfl
    have hmin : min (count + size) partition.size = min (count + 65536) partition.size := by omega
    have hdrop : partition.contents.drop (count + size)
        = partition.contents.drop (count + 65536) := by
      by_cases hlast : partition.size - count < 65536
      · rw [List.drop_of_length_le (by omega), List.drop_of_length_le (by omega)]
      · rw [hsize, Nat.min_eq_left (by omega)]
    rw [wwwAfter, h.contents, Nat.min_eq_left (Nat.le_of_lt hcount),
      eraseBytes_next _ (by omega), hdrop, hlength, hmin]

theorem erasePartition_spec (erase : Nat → FlashResult) (chunks : Nat) : ∀ (first : Nat)
    (m : UpdateMachine), 65536 * (first + chunks) < partition.size + 65536 →
    WwwErasing partition body (65536 * first) m.guard m.events →
    Wp (erasePartition partition.size erase ((List.range' first chunks).map (65536 * ·)))
      (fun erased m' => m'.unread = m.unread ∧
        if erased then WwwErasing partition body (65536 * (first + chunks)) m'.guard m'.events
        else GuardHeld m'.guard m'.events ∧
          Throughout (WwwWritten (some partition) body) m'.events ∧
            ∃ offset, erase offset ≠ .ok) E m := by
  induction chunks with
  | zero => exact fun first m _ h => ⟨rfl, h⟩
  | succ chunks ih =>
    intro first m hchunks h
    rw [List.range'_succ, List.map_cons, erasePartition, wp_bind, wp_record]
    cases herase : erase (65536 * first) with
    | ok =>
      have hnext := h.next (by omega) rfl
      rw [← Nat.mul_succ] at hnext
      have hsum : first + (chunks + 1) = first + 1 + chunks := by omega
      rw [hsum] at hchunks ⊢
      exact ih (first + 1) (m.record _) hchunks hnext
    | failed left =>
      have hheld : GuardHeld m.guard (.eraseRange (65536 * first)
          (min 65536 (partition.size - 65536 * first)) (.failed left) :: m.events) :=
        h.held.record rfl rfl nofun
      exact ⟨rfl, hheld, ⟨trivial, h.written⟩, 65536 * first, by rw [herase]; nofun⟩

/-- The erasing loop, from its start. -/
theorem erasePartition_all (erase : Nat → FlashResult) (hfits : body.length ≤ partition.size)
    (h : WwwErasing partition body 0 m.guard m.events) :
    Wp (erasePartition partition.size erase (eraseOffsets partition.size))
      (fun erased m' => m'.unread = m.unread ∧
        if erased then WwwWriting partition body [] m'.guard m'.events
        else GuardHeld m'.guard m'.events ∧
          Throughout (WwwWritten (some partition) body) m'.events ∧
            ∃ offset, erase offset ≠ .ok) E m := by
  have hchunks : 65536 * ((partition.size + 65535) / 65536) < partition.size + 65536 := by omega
  rw [eraseOffsets, List.range_eq_range']
  refine (erasePartition_spec erase _ 0 m (by omega) h).mono (fun erased m' hm' => ?_) fun _ h => h
  obtain ⟨hunread, herased⟩ := hm'
  refine ⟨hunread, ?_⟩
  cases erased with
  | false => exact herased
  | true =>
    have herased : WwwErasing partition body _ m'.guard m'.events := herased
    have hlength : partition.contents.length = partition.size := rfl
    have hcontents : wwwAfter partition.contents m'.events
        = List.replicate partition.size 0xFF := by
      rw [herased.contents, Nat.min_eq_right (by omega), List.drop_of_length_le (by omega),
        List.append_nil]
    refine ⟨herased.held, herased.written,
      ⟨m'.events, List.suffix_rfl, herased.erases, hcontents⟩, ?_⟩
    have hsum : partition.size - body.length + body.length = partition.size :=
      Nat.sub_add_cancel hfits
    rw [hcontents, List.append_nil, List.length_nil, Nat.sub_zero,
      List.replicate_append_replicate, hsum]

theorem ErasedFirst.cons {events : List UpdateEvent} (h : ErasedFirst partition events)
    (event : UpdateEvent) : ErasedFirst partition (event :: events) := by
  obtain ⟨erases, hsuffix, herases⟩ := h
  exact ⟨erases, hsuffix.trans (List.suffix_cons event events), herases⟩

theorem writePartition_spec (write : Nat → FlashResult) (hfits : body.length ≤ partition.size)
    {done bytes rest : List U8} {remaining : Int} (hbody : body = done ++ (bytes ++ rest))
    (hremaining : remaining = ((bytes ++ rest).length : Int))
    (h : WwwWriting partition body done m.guard m.events) :
    Wp (writePartition partition.size write remaining bytes) (fun written m' =>
      m'.unread = m.unread ∧
        if written then WwwWriting partition body (done ++ bytes) m'.guard m'.events
        else GuardHeld m'.guard m'.events ∧
          Throughout (WwwWritten (some partition) body) m'.events ∧
            ∃ offset, write offset ≠ .ok) E m := by
  have hlength : body.length = done.length + (bytes.length + rest.length) := by
    rw [hbody, List.length_append, List.length_append]
  let front := List.replicate (partition.size - body.length) (0xFF : U8) ++ done
  have hoffset : ((partition.size : Int) - remaining).toNat = front.length := by
    rw [hremaining, List.length_append, List.length_append, List.length_replicate]
    omega
  rw [writePartition, hoffset, wp_bind, wp_record, wp_pure]
  have hheld (result : FlashResult) :
      GuardHeld m.guard (.partitionWrite front.length bytes result :: m.events) :=
    h.held.record rfl rfl nofun
  have hwritten (result : FlashResult) : Throughout (WwwWritten (some partition) body)
      (.partitionWrite front.length bytes result :: m.events) := ⟨trivial, h.written⟩
  refine ⟨rfl, ?_⟩
  cases hwrite : write front.length with
  | failed left => exact ⟨hheld _, hwritten _, front.length, by rw [hwrite]; nofun⟩
  | ok =>
    refine ⟨hheld .ok, hwritten .ok, h.erased.cons _, ?_⟩
    have hleft : body.length - done.length - bytes.length
        = body.length - (done ++ bytes).length := by
      rw [List.length_append]
      omega
    calc wwwAfter partition.contents (.partitionWrite front.length bytes .ok :: m.events)
        = programBytes (front ++ List.replicate (body.length - done.length) 0xFF)
            front.length bytes := by rw [wwwAfter, h.contents]
      _ = front ++ bytes ++ List.replicate (body.length - done.length - bytes.length) 0xFF :=
          programBytes_erased front (by omega)
      _ = _ := by rw [hleft, List.append_assoc _ done bytes]

/-- Something that the handler of the web interface needs goes wrong. -/
def WwwFails (partition : Option FlashPartition) (o : WwwOutcomes) (request : UploadRequest) :
    Prop :=
  o.networkAllowed = false ∨ o.apMode = true ∨ o.acquired = false ∨
    (∀ found, partition = some found → found.size < request.contentLen) ∨
    (∃ offset, o.erase offset ≠ .ok) ∨ .failed ∈ o.recvs ∨ ∃ offset, o.write offset ≠ .ok

/-- Every end of the web interface's handler. -/
def WwwEnds (partition : Option FlashPartition) (o : WwwOutcomes) (request : UploadRequest)
    (reply : HttpReply) (m : UpdateMachine) : Prop :=
  GuardSettled reply m ∧ Throughout (WwwWritten partition request.body) m.events ∧
    match reply with
    | .sent _ => .useCustomWww true ∈ m.events
    | .error _ _ => WwwFails partition o request

theorem failWww_spec {found : Option FlashPartition} {o : WwwOutcomes} {request : UploadRequest}
    (h : GuardHeld m.guard m.events)
    (hwritten : Throughout (WwwWritten found request.body) m.events)
    (hfails : WwwFails found o request) (released : Bool) (error : Nat) (message : String) :
    Wp (failUpdate released error message) (WwwEnds found o request) E m := by
  refine (failUpdate_spec h released error message).mono (fun reply m' hm' => ?_) fun _ h => h
  obtain ⟨⟨status, text, rfl⟩, hsettled, hevents⟩ := hm'
  refine ⟨hsettled, ?_, hfails⟩
  rw [hevents]
  exact ⟨trivial, hwritten⟩

theorem finishWww_spec {o : WwwOutcomes} {request : UploadRequest}
    (hfits : request.body.length ≤ partition.size)
    (h : WwwWriting partition request.body request.body m.guard m.events) (released : Bool) :
    Wp (finishWww released) (WwwEnds (some partition) o request) E m := by
  have hheld : GuardHeld m.guard (.useCustomWww true :: m.events) := h.held.record rfl rfl nofun
  have hholds : HoldsAt partition (partition.size - request.body.length) request.body m.events := by
    refine ⟨h.erased, ?_⟩
    have hrest : partition.size - (partition.size - request.body.length) - request.body.length
        = request.body.length - request.body.length := by omega
    rw [h.contents, hrest]
  rw [finishWww, wp_bind, wp_setStatus, wp_bind, wp_record, wp_bind, wp_setStatus, wp_bind]
  refine retain_spec hheld ?_
  rw [if_pos rfl]
  exact ⟨⟨hheld.acquired, hheld.released, rfl, rfl⟩,
    ⟨trivial, ⟨partition, rfl, hfits, hholds⟩, h.written⟩,
    List.mem_cons_of_mem _ List.mem_cons_self⟩

/-- The handler of the web interface, in every run. -/
theorem postWwwUpdate_spec (found : Option FlashPartition) (o : WwwOutcomes)
    (system : FirmwareUpdate) (request : UploadRequest) :
    Wp (postWwwUpdate found o request.contentLen) (WwwEnds found o request)
      (StillReceiving (WwwWritten found request.body) o.recvs request)
      (.start system request) := by
  unfold postWwwUpdate
  refine beginUpload_spec system request (fun hrefused status text m hevents hsettled => ?_)
    fun m hheld hevents hunread => ?_
  · refine ⟨hsettled, ?_, ?_⟩
    · rcases hevents with hevents | hevents
      · rw [hevents]
        trivial
      · rw [hevents]
        exact ⟨trivial, trivial⟩
    · rcases hrefused with hnetwork | hmode | hacquired
      · exact .inl hnetwork
      · exact .inr (.inl hmode)
      · exact .inr (.inr (.inl hacquired))
  have hacquired : Throughout (WwwWritten found request.body) m.events := by
    rw [hevents]
    exact ⟨trivial, trivial⟩
  match found with
  | none => exact failWww_spec hheld hacquired (.inr (.inr (.inr (.inl nofun)))) _ _ _
  | some partition =>
    dsimp only
    rw [updateWww, ofInt_remainingOf]
    split
    · next hlarge =>
      refine failWww_spec hheld hacquired (.inr (.inr (.inr (.inl ?_)))) _ _ _
      rintro _ ⟨⟩
      exact hlarge
    · next hsize =>
      have hfits : request.body.length ≤ partition.size := Nat.le_of_not_lt hsize
      have hflash := partition.inFlash
      have hremaining : remainingOf request.contentLen = (request.body.length : Int) :=
        remainingOf_eq (by rw [UploadRequest.contentLen]; rw [FlashPartition.size] at hfits; omega)
      have herasing : WwwErasing partition request.body 0 m.guard m.events := by
        refine ⟨hheld, hacquired, ?_, ?_⟩
        · rw [hevents]
          simp [UpdateEvent.isWrite]
        · rw [hevents]
          simp [wwwAfter]
      rw [wp_bind]
      refine (erasePartition_all o.erase hfits herasing).mono (fun erased m' hm' => ?_)
        fun _ h => h
      obtain ⟨hunread', herased⟩ := hm'
      cases erased with
      | false =>
        obtain ⟨hheld, hwritten, hfailed⟩ := herased
        rw [if_neg Bool.false_ne_true, wp_bind, wp_setStatus]
        exact failWww_spec (m := m'.setStatus "Erase Error") hheld hwritten
          (.inr (.inr (.inr (.inr (.inl hfailed))))) _ _ _
      | true =>
        have hlength : m'.unread = request.body := hunread'.trans hunread
        have hcount : (request.body.length : Int) = m'.unread.length := by rw [hlength]
        rw [if_pos rfl, wp_bind, hremaining, hcount]
        refine (receiveBody_spec (I := WwwWriting partition request.body)
          (J := fun guard events => GuardHeld guard events ∧
            Throughout (WwwWritten (some partition) request.body) events ∧
              WwwFails (some partition) o request)
          (fun _ _ _ _ _ hbody hrest hwriting => ?_) o.recvs
          (fun hmem _ _ _ hwriting => ⟨hwriting.held, hwriting.written,
            .inr (.inr (.inr (.inr (.inr (.inl hmem)))))⟩) [] m' hlength.symm herased).mono
          (fun status m'' hm'' => ?_) fun m'' hm'' => ?_
        · refine (writePartition_spec o.write hfits hbody hrest hwriting).mono
            (fun written m'' hm'' => ⟨hm''.1, ?_⟩) fun _ h => h
          cases written with
          | true => exact hm''.2
          | false =>
            obtain ⟨hheld, hwritten, hfailed⟩ := hm''.2
            exact ⟨hheld, hwritten, .inr (.inr (.inr (.inr (.inr (.inr hfailed)))))⟩
        · cases status with
          | none => exact finishWww_spec hfits hm'' _
          | some status =>
            obtain ⟨hheld, hwritten, hfails⟩ := hm''
            dsimp only
            rw [wp_bind, wp_setStatus]
            exact failWww_spec (m := m''.setStatus status) hheld hwritten hfails _ _ _
        · obtain ⟨⟨done, hwriting⟩, hfew⟩ := hm''
          refine ⟨hwriting.held, hwriting.written, ?_⟩
          have hcontent : m'.unread.length = request.contentLen := congrArg List.length hlength
          exact hcontent ▸ hfew

end Www

/-! ## Uploads are exact -/

/-- Erased flash around the body is in front of it or behind it. -/
theorem replicate_append_comm_iff {α : Type} {value : α} {count : Nat} {items : List α} :
    List.replicate count value ++ items = items ++ List.replicate count value ↔
      count = 0 ∨ ∀ item ∈ items, item = value := by
  cases count with
  | zero => simp
  | succ count =>
    rw [or_iff_right (Nat.succ_ne_zero count)]
    induction items with
    | nil => simp
    | cons item items ih =>
      rw [List.forall_mem_cons, ← ih, List.replicate_succ, List.cons_append, List.cons_append,
        List.cons.injEq, eq_comm (a := value)]
      refine and_congr_right fun heq => ?_
      have hshift : List.replicate count value ++ value :: items
          = value :: List.replicate count value ++ items := by
        rw [List.append_cons, ← List.replicate_succ', List.replicate_succ]
      rw [heq, hshift]

/-- Where the body lies, the flash looks as if it lay at offset 0. -/
theorem holdsAt_zero_iff {partition : FlashPartition} {body : List U8}
    {events : List UpdateEvent} (hfits : body.length ≤ partition.size)
    (h : HoldsAt partition (partition.size - body.length) body events) :
    HoldsAt partition 0 body events ↔
      body.length = partition.size ∨ ∀ byte ∈ body, byte = 0xFF := by
  obtain ⟨herased, hcontents⟩ := h
  have hrest : partition.size - (partition.size - body.length) - body.length = 0 := by omega
  rw [hrest, List.replicate_zero, List.append_nil] at hcontents
  have hequal : body.length = partition.size ↔ partition.size - body.length = 0 := by omega
  rw [HoldsAt, hcontents, List.replicate_zero, List.nil_append, Nat.sub_zero,
    replicate_append_comm_iff, hequal]
  exact and_iff_right herased

/-- What an upload has to keep, whatever the outcomes are: in every run of either handler the
guard is settled at its end and held while it waits, the firmware that is selected was written
exactly, and the web interface that is used lies at offset 0. -/
def UploadsExact (request : UploadRequest) (www ota : Option FlashPartition) : Prop :=
  (∀ (o : OtaOutcomes) (system : FirmwareUpdate),
    Wp (postOtaUpdate ota o request.contentLen) (OtaEnds request.body)
      (StillReceiving (BootSwitched request.body) o.recvs request) (.start system request)) ∧
  ∀ (o : WwwOutcomes) (system : FirmwareUpdate),
    Wp (postWwwUpdate www o request.contentLen)
      (fun reply m => GuardSettled reply m ∧ Throughout (WwwUsed www request.body) m.events)
      (StillReceiving (WwwUsed www request.body) o.recvs request) (.start system request)

/-- Nothing goes wrong, and the body comes byte by byte. -/
def WwwOutcomes.good (request : UploadRequest) : WwwOutcomes where
  networkAllowed := true
  apMode := false
  acquired := true
  released := true
  recvs := List.replicate request.contentLen (.received 0)
  erase _ := .ok
  write _ := .ok

/-- A body that fits is used when nothing goes wrong, from the end of the partition. -/
theorem exists_wwwUsed {partition : FlashPartition} {request : UploadRequest}
    (hfits : request.body.length ≤ partition.size) {P : UpdateEvent → List UpdateEvent → Prop}
    (hruns : ∀ (o : WwwOutcomes) (system : FirmwareUpdate),
      Wp (postWwwUpdate (some partition) o request.contentLen)
        (fun reply m => GuardSettled reply m ∧ Throughout P m.events)
        (StillReceiving P o.recvs request) (.start system request)) :
    ∃ older, P (.useCustomWww true) older ∧
      HoldsAt partition (partition.size - request.body.length) request.body older := by
  have hrun := (postWwwUpdate_spec (some partition) (.good request) ⟨false, "", ""⟩ request).and
    (hruns (.good request) ⟨false, "", ""⟩)
  have hall : (WwwOutcomes.good request).recvs.countP RecvResult.counts = request.contentLen := by
    rw [WwwOutcomes.good, List.countP_replicate]
    rfl
  obtain ⟨reply, m, ⟨-, hwritten, hreply⟩, -, hP⟩ := Wp.exists_ok (hrun.mono (fun _ _ h => h)
    fun m h => absurd (hall ▸ h.1.2.2) (Nat.lt_irrefl _))
  cases reply with
  | error status text =>
    rcases hreply with hnetwork | hmode | hacquired | hsmall | ⟨offset, herase⟩ | hfailed |
      ⟨offset, hwrite⟩
    · cases hnetwork
    · cases hmode
    · cases hacquired
    · exact absurd (hsmall partition rfl) (Nat.not_lt.mpr hfits)
    · exact absurd rfl herase
    · cases List.eq_of_mem_replicate hfailed
    · exact absurd rfl hwrite
  | sent text =>
    obtain ⟨newer, older, hsplit⟩ := List.append_of_mem hreply
    obtain ⟨found, hfound, -, hholds⟩ := throughout_iff.mp hwritten newer _ older hsplit
    obtain rfl := Option.some.inj hfound
    exact ⟨older, throughout_iff.mp hP newer _ older hsplit, hholds⟩

/-- **Uploads are exact if and only if** the body of a web interface is larger than its
partition, or is not empty and has its size or only erased bytes. -/
theorem uploadsExact_iff (request : UploadRequest) (www ota : Option FlashPartition) :
    UploadsExact request www ota ↔ ∀ partition, www = some partition →
      partition.size < request.body.length ∨ request.body ≠ [] ∧
        (request.body.length = partition.size ∨ ∀ byte ∈ request.body, byte = 0xFF) := by
  constructor
  · rintro ⟨-, hwww⟩ partition rfl
    rcases Nat.lt_or_ge partition.size request.body.length with hlarge | hfits
    · exact .inl hlarge
    · obtain ⟨older, ⟨found, hfound, hne, hzero⟩, hholds⟩ := exists_wwwUsed hfits hwww
      obtain rfl := Option.some.inj hfound
      exact .inr ⟨hne, (holdsAt_zero_iff hfits hholds).mp hzero⟩
  · intro h
    have hused : ∀ event older, WwwWritten www request.body event older →
        WwwUsed www request.body event older := by
      intro event older hwritten
      match event with
      | .useCustomWww true =>
        obtain ⟨found, hfound, hfits, hholds⟩ := hwritten
        obtain ⟨hne, hbody⟩ := (h found hfound).resolve_left (Nat.not_lt.mpr hfits)
        exact ⟨found, hfound, hne, (holdsAt_zero_iff hfits hholds).mpr hbody⟩
      | .useCustomWww false => trivial
      | .acquire _ | .release _ | .eraseRange _ _ _ | .partitionWrite _ _ _ | .otaBegin _ _
      | .otaWrite _ _ | .otaAbort | .otaEnd _ | .setBootPartition _ | .lastFwFingerprint _
      | .restart => trivial
    have hthroughout {events : List UpdateEvent}
        (hwritten : Throughout (WwwWritten www request.body) events) :
        Throughout (WwwUsed www request.body) events :=
      throughout_iff.mpr fun newer event older hsplit =>
        hused event older (throughout_iff.mp hwritten newer event older hsplit)
    refine ⟨fun o system => postOtaUpdate_spec ota o system request, fun o system => ?_⟩
    exact (postWwwUpdate_spec www o system request).mono
      (fun reply m hm => ⟨hm.1, hthroughout hm.2.1⟩)
      fun m hm => ⟨hm.1, hthroughout hm.2.1, hm.2.2⟩

/-- The partition of the web interface, 3 MiB, as it is erased. -/
def wwwPartition : FlashPartition where
  contents := List.replicate 0x300000 0xFF
  inFlash := by
    rw [List.length_replicate]
    decide

/-- A body of one byte. -/
def byteRequest : UploadRequest where
  body := [1]
  fits := by decide

/-- A body that is smaller than the partition is used, and lies at its end. -/
theorem www_shortBody_misplaced : ¬ UploadsExact byteRequest (some wwwPartition) none := by
  rintro ⟨-, hwww⟩
  have hsize : wwwPartition.size = 0x300000 := List.length_replicate ..
  have hfits : byteRequest.body.length ≤ wwwPartition.size := by
    rw [hsize]
    decide
  obtain ⟨older, ⟨found, hfound, -, hzero⟩, hholds⟩ := exists_wwwUsed hfits hwww
  obtain rfl := Option.some.inj hfound
  rcases (holdsAt_zero_iff hfits hholds).mp hzero with hlength | hbytes
  · rw [hsize] at hlength
    exact absurd hlength (by decide)
  · exact absurd (hbytes 1 List.mem_cons_self) (by decide)

end EspMiner
