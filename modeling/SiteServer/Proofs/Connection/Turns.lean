import SiteServer.Proofs.Connection.Delivered

/-!
# The reads of an intake

An intake is followed read by read.  Each read asks for something, but for no more
than may still be taken; and the intake ends at the first moment at which there is
a reason to: the head is complete, all that is allowed was taken, the last read gave
nothing, or it failed for good (`Over`).  None of the data is lost on the way, and
none comes twice, since what the reads gave and what they left is what was there
before them (`Reads.data`).

A read that was interrupted is made again.  All that this leaves behind is one more
read: without its interruptions a script is taken in just the same
(`takeIn_withoutInterruptions`).
-/

namespace SiteServer.Connection

open Http (terminator findTerminator)

/-! ## Reads -/

/-- One read: how much it asked for, and what it gave. -/
structure Turn where
  asked : Nat
  given : Except ReadFault Bytes

namespace Turn

/-- The data that a read gave. -/
def bytes (turn : Turn) : Bytes :=
  match turn.given with
  | .ok bs => bs
  | .error _ => []

/-- Nothing is read after a read that gave nothing, or failed other than by an
interruption. -/
inductive Ends : Turn → Prop where
  | nothing {asked : Nat} : Ends ⟨asked, .ok []⟩
  | failure {asked : Nat} {why : ReadFault} (real : why ≠ .interrupted) :
      Ends ⟨asked, .error why⟩

end Turn

/-- The data that several reads gave, in order. -/
def gathered (turns : List Turn) : Bytes :=
  turns.flatMap Turn.bytes

theorem append_gathered_nil (received : Bytes) : received ++ gathered [] = received :=
  List.append_nil received

theorem append_gathered_cons (received : Bytes) (turn : Turn) (turns : List Turn) :
    received ++ gathered (turn :: turns) = received ++ turn.bytes ++ gathered turns := by
  rw [gathered, List.flatMap_cons, List.append_assoc]
  rfl

/-- Reads made one after another on a script, and what they leave of it. -/
inductive Reads : List Delivery → List Turn → List Delivery → Prop where
  | none (script : List Delivery) : Reads script [] script
  | next {script between left : List Delivery} {want : Nat} {given : Except ReadFault Bytes}
      {turns : List Turn} (first : read want script = (given, between))
      (rest : Reads between turns left) : Reads script (⟨want, given⟩ :: turns) left

/-- What a read gave and what it left is what was there. -/
theorem scriptData_read {want : Nat} {script left : List Delivery}
    {given : Except ReadFault Bytes} (h : read want script = (given, left)) :
    Turn.bytes ⟨want, given⟩ ++ scriptData left = scriptData script := by
  cases script with
  | nil =>
      obtain ⟨rfl, rfl⟩ := Prod.mk.inj h
      rfl
  | cons first rest =>
      cases first with
      | fault why =>
          obtain ⟨rfl, rfl⟩ := Prod.mk.inj h
          rfl
      | data bs =>
          obtain ⟨rfl, hleft⟩ := Prod.mk.inj h
          have hdata : scriptData left = bs.drop want ++ scriptData rest := by
            rw [← hleft]
            cases bs.drop want <;> rfl
          show bs.take want ++ scriptData left = bs ++ scriptData rest
          rw [hdata, ← List.append_assoc, List.take_append_drop]

/-- Reads lose no data and give none twice. -/
theorem Reads.data {script left : List Delivery} {turns : List Turn}
    (h : Reads script turns left) : gathered turns ++ scriptData left = scriptData script := by
  induction h with
  | none => rfl
  | next first rest ih =>
      rw [gathered, List.flatMap_cons, List.append_assoc]
      exact (congrArg _ ih).trans (scriptData_read first)

/-- What came before the reads, what they gave and what they left is all there is. -/
theorem Reads.append_data {script left : List Delivery} {turns : List Turn}
    (h : Reads script turns left) (received : Bytes) :
    received ++ gathered turns ++ scriptData left = received ++ scriptData script := by
  rw [List.append_assoc, h.data]

/-- A read gives no more than it asks for. -/
theorem length_bytes_read {want : Nat} {script left : List Delivery}
    {given : Except ReadFault Bytes} (h : read want script = (given, left)) :
    (Turn.bytes ⟨want, given⟩).length ≤ want := by
  cases script with
  | nil =>
      obtain ⟨rfl, rfl⟩ := Prod.mk.inj h
      exact Nat.zero_le _
  | cons first rest =>
      cases first with
      | fault why =>
          obtain ⟨rfl, rfl⟩ := Prod.mk.inj h
          exact Nat.zero_le _
      | data bs =>
          obtain ⟨rfl, rfl⟩ := Prod.mk.inj h
          exact List.length_take_le _ _

/-! ## The end of an intake -/

/-- There is a reason to end an intake that began with some bytes and has made some
reads since. -/
inductive Over (limit : Nat) (received : Bytes) (turns : List Turn) : Prop where
  | complete (head : terminator <:+: received ++ gathered turns)
  | full (all : (received ++ gathered turns).length = limit)
  | ended {turn : Turn} (last : turns.getLast? = some turn) (ends : turn.Ends)

theorem exists_findTerminator_iff {buffer : Bytes} :
    (∃ i, findTerminator buffer = some i) ↔ terminator <:+: buffer := by
  rw [List.infix_iff_prefix_suffix]
  constructor
  · rintro ⟨i, hi⟩
    exact ⟨buffer.drop i, Http.terminator_prefix_drop hi, List.drop_suffix i buffer⟩
  · rintro ⟨tail, hprefix, hsuffix⟩
    rw [List.suffix_iff_eq_drop.1 hsuffix] at hprefix
    obtain ⟨i, hi, -⟩ := Http.exists_findTerminator hprefix
    exact ⟨i, hi⟩

/-- Nothing is wanted exactly if there is a reason to end before any read. -/
theorem wanted?_eq_none_iff_over {limit : Nat} {received : Bytes}
    (hlimit : received.length ≤ limit) :
    wanted? limit received = none ↔ Over limit received [] := by
  have hnil := append_gathered_nil received
  rw [wanted?_eq_none_iff, exists_findTerminator_iff]
  constructor
  · rintro (hfull | hhead)
    · exact .full (hnil.symm ▸ Nat.le_antisymm hlimit hfull)
    · exact .complete (hnil.symm ▸ hhead)
  · intro h
    cases h with
    | complete head => exact .inr (hnil ▸ head)
    | full all => exact .inl (Nat.le_of_eq (hnil ▸ all.symm))
    | ended last => simp at last

/-- A reason to end is one for the reads behind the first, unless it is the first. -/
theorem over_cons_iff {limit : Nat} {received : Bytes} {turn : Turn} {turns : List Turn} :
    Over limit received (turn :: turns) ↔
      Over limit (received ++ turn.bytes) turns ∨ turns = [] ∧ turn.Ends := by
  have hall := append_gathered_cons received turn turns
  constructor
  · intro h
    cases h with
    | complete head => exact .inl (.complete (hall ▸ head))
    | full all => exact .inl (.full (hall ▸ all))
    | ended last ends =>
        cases turns with
        | nil =>
            obtain rfl := Option.some.inj last
            exact .inr ⟨rfl, ends⟩
        | cons next rest => exact .inl (.ended (List.getLast?_cons_cons ▸ last) ends)
  · rintro (h | ⟨rfl, ends⟩)
    · cases h with
      | complete head => exact .complete (hall.symm ▸ head)
      | full all => exact .full (hall.symm ▸ all)
      | ended last ends =>
          refine .ended ?_ ends
          rw [List.getLast?_cons, last]
          rfl
    · exact .ended rfl ends

/-! ## The account of an intake -/

/-- What can be said of an intake that began with some bytes, read by read. -/
structure Account (limit : Nat) (received : Bytes) (script : List Delivery) (turns : List Turn)
    (intake : Intake) : Prop where
  reads : Reads script turns intake.left
  asked : intake.asked = turns.map Turn.asked
  /-- A read asks for something, and for no more than may still be taken. -/
  modest : ∀ before turn after, turns = before ++ turn :: after →
    1 ≤ turn.asked ∧ turn.asked ≤ 4096 ∧
      turn.asked ≤ limit - (received ++ gathered before).length
  within : (received ++ gathered turns).length ≤ limit
  /-- It ends when there is a reason to, and not before. -/
  ending : Over limit received turns
  prompt : ∀ before turn after, turns = before ++ turn :: after → ¬ Over limit received before
  /-- It fails as a read did, unless that was an interruption. -/
  failed : ∀ why, intake.result = .error why ↔
    why ≠ .interrupted ∧ ∃ turn ∈ turns, turn.given = .error why
  /-- It succeeds with what the reads gave; that, and what they left, is the data. -/
  succeeded : ∀ bytes, intake.result = .ok bytes →
    bytes = received ++ gathered turns ∧
      bytes ++ scriptData intake.left = received ++ scriptData script

namespace Account

variable {limit want : Nat} {received : Bytes} {script left : List Delivery}

/-- An intake that has nothing to do. -/
theorem idle (hlimit : received.length ≤ limit) (ending : Over limit received []) :
    Account limit received script [] ⟨.ok received, [], script⟩ where
  reads := .none script
  asked := rfl
  modest := by simp
  within := by rwa [append_gathered_nil]
  ending := ending
  prompt := by simp
  failed := by simp
  succeeded := by
    intro bytes h
    obtain rfl := Except.ok.inj h
    exact ⟨(append_gathered_nil received).symm, rfl⟩

/-- Where something is wanted there is no reason to end. -/
theorem not_over_of_wanted (hwant : wanted? limit received = some want) :
    ¬ Over limit received [] := by
  intro hover
  have hroom := (wanted?_eq_some hwant).2.2
  have hpos := (wanted?_eq_some hwant).1
  rw [(wanted?_eq_none_iff_over (by omega)).2 hover] at hwant
  contradiction

/-- An intake that ends with its first read. -/
theorem last {given : Except ReadFault Bytes} (hwant : wanted? limit received = some want)
    (hread : read want script = (given, left)) (ends : Turn.Ends ⟨want, given⟩) :
    Account limit received script [⟨want, given⟩]
      ⟨given.map fun _ => received, [want], left⟩ := by
  obtain ⟨hpos, hchunk, hroom⟩ := wanted?_eq_some hwant
  have hbytes : Turn.bytes ⟨want, given⟩ = [] := by
    cases ends <;> rfl
  have hall : received ++ gathered [⟨want, given⟩] = received := by
    rw [append_gathered_cons, append_gathered_nil, hbytes, List.append_nil]
  have hreads : Reads script [⟨want, given⟩] left := .next hread (.none left)
  have hfirst : ∀ {before after : List Turn} {turn : Turn},
      [⟨want, given⟩] = before ++ turn :: after → before = [] ∧ turn = ⟨want, given⟩ := by
    intro before after turn h
    cases before with
    | nil => exact ⟨rfl, (List.cons.inj h).1.symm⟩
    | cons _ before => simp at h
  exact
    { reads := hreads
      asked := rfl
      modest := by
        intro before turn after h
        obtain ⟨rfl, rfl⟩ := hfirst h
        rw [append_gathered_nil]
        exact ⟨hpos, hchunk, hroom⟩
      within := by
        rw [hall]
        omega
      ending := .ended rfl ends
      prompt := by
        intro before turn after h
        obtain ⟨rfl, -⟩ := hfirst h
        exact not_over_of_wanted hwant
      failed := by
        intro why
        cases ends with
        | nothing => simp [Except.map]
        | failure real =>
            constructor
            · intro h
              obtain rfl := Except.error.inj h
              exact ⟨real, _, List.mem_singleton.2 rfl, rfl⟩
            · rintro ⟨-, turn, hturn, hgiven⟩
              obtain rfl := List.mem_singleton.1 hturn
              exact congrArg _ (Except.error.inj hgiven)
      succeeded := by
        intro bytes h
        cases ends with
        | nothing =>
            obtain rfl := Except.ok.inj h
            have hdata := hreads.append_data received
            rw [hall] at hdata
            exact ⟨hall.symm, hdata⟩
        | failure => cases h }

/-- An intake that goes on after its first read. -/
theorem next {given : Except ReadFault Bytes} {turns : List Turn} {intake : Intake}
    (hwant : wanted? limit received = some want) (hread : read want script = (given, left))
    (going : ¬ Turn.Ends ⟨want, given⟩)
    (rest : Account limit (received ++ Turn.bytes ⟨want, given⟩) left turns intake) :
    Account limit received script (⟨want, given⟩ :: turns)
      { intake with asked := want :: intake.asked } := by
  have hreads : Reads script (⟨want, given⟩ :: turns) intake.left := .next hread rest.reads
  exact
    { reads := hreads
      asked := congrArg _ rest.asked
      modest := by
        intro before turn after h
        cases before with
        | nil =>
            obtain ⟨rfl, -⟩ := List.cons.inj h
            rw [append_gathered_nil]
            exact wanted?_eq_some hwant
        | cons first before =>
            obtain ⟨rfl, hrest⟩ := List.cons.inj h
            rw [append_gathered_cons]
            exact rest.modest before turn after hrest
      within := by
        rw [append_gathered_cons]
        exact rest.within
      ending := over_cons_iff.2 (.inl rest.ending)
      prompt := by
        intro before turn after h
        cases before with
        | nil => exact not_over_of_wanted hwant
        | cons first before =>
            obtain ⟨rfl, hrest⟩ := List.cons.inj h
            rw [over_cons_iff]
            rintro (hover | ⟨-, ends⟩)
            · exact rest.prompt before turn after hrest hover
            · exact going ends
      failed := by
        intro why
        have hfirst : why ≠ .interrupted → given ≠ .error why := by
          rintro real rfl
          exact going (.failure real)
        refine (rest.failed why).trans (and_congr_right fun real => ?_)
        simp [hfirst real]
      succeeded := by
        intro bytes h
        obtain ⟨hbytes, -⟩ := rest.succeeded bytes h
        obtain rfl := hbytes.trans (append_gathered_cons ..).symm
        exact ⟨rfl, hreads.append_data received⟩ }

end Account

/-- A read that gives something, or fails, leaves less to read. -/
theorem scriptWeight_lt_of_read {want : Nat} {script left : List Delivery}
    {given : Except ReadFault Bytes} (hwant : 0 < want) (h : read want script = (given, left))
    (hgiven : given ≠ .ok []) : scriptWeight left < scriptWeight script := by
  have hless := @scriptWeight_read want script hwant
  rw [h] at hless
  exact hless hgiven

/-- Every intake can be accounted for. -/
theorem takeIn_accounts {limit : Nat} {received : Bytes} {script : List Delivery}
    (hlimit : received.length ≤ limit) :
    ∃ turns, Account limit received script turns (takeIn limit received script) ∧
      turns.length ≤ scriptWeight script + 1 := by
  fun_induction takeIn limit received script with
  | case1 received script hwant =>
      exact ⟨[], .idle hlimit ((wanted?_eq_none_iff_over hlimit).1 hwant), Nat.zero_le _⟩
  | case2 received script want hwant left hread =>
      exact ⟨_, .last hwant hread .nothing, Nat.le_add_left 1 _⟩
  | case3 received script want hwant b more left hread next ih =>
      obtain ⟨hpos, -, hroom⟩ := wanted?_eq_some hwant
      have hpiece : (b :: more).length ≤ want := length_bytes_read hread
      have hnext : (received ++ b :: more).length ≤ limit := by
        rw [List.length_append]
        omega
      have hgoing : ¬ Turn.Ends ⟨want, .ok (b :: more)⟩ := by
        intro ends
        cases ends
      obtain ⟨turns, haccount, hfew⟩ := ih hnext
      have hless := scriptWeight_lt_of_read hpos hread (by simp)
      refine ⟨_, .next hwant hread hgoing haccount, ?_⟩
      rw [List.length_cons]
      omega
  | case4 received script want hwant left hread next ih =>
      have hgoing : ¬ Turn.Ends ⟨want, .error .interrupted⟩ := by
        intro ends
        cases ends with
        | failure real => exact real rfl
      obtain ⟨turns, haccount, hfew⟩ := ih hlimit
      have hnext : Account limit (received ++ Turn.bytes ⟨want, .error .interrupted⟩) left turns
          next := (List.append_nil received).symm ▸ haccount
      have hless := scriptWeight_lt_of_read (wanted?_eq_some hwant).1 hread (by simp)
      refine ⟨_, .next hwant hread hgoing hnext, ?_⟩
      rw [List.length_cons]
      omega
  | case5 received script want hwant why left hreal hread =>
      exact ⟨_, .last hwant hread (.failure hreal), Nat.le_add_left 1 _⟩

/-! ## Interruptions -/

/-- Whether a delivery is anything but an interruption. -/
def Delivery.isCalm : Delivery → Bool
  | .fault .interrupted => false
  | _ => true

/-- A script without its interruptions. -/
def withoutInterruptions (script : List Delivery) : List Delivery :=
  script.filter Delivery.isCalm

/-- A read that is not interrupted is the same without the interruptions. -/
theorem read_withoutInterruptions {want : Nat} {script left : List Delivery}
    {given : Except ReadFault Bytes} (h : read want script = (given, left))
    (hgiven : given ≠ .error .interrupted) :
    read want (withoutInterruptions script) = (given, withoutInterruptions left) := by
  cases script with
  | nil =>
      obtain ⟨rfl, rfl⟩ := Prod.mk.inj h
      rfl
  | cons first rest =>
      cases first with
      | fault why =>
          obtain ⟨rfl, rfl⟩ := Prod.mk.inj h
          have hcalm : (Delivery.fault why).isCalm = true := by
            cases why with
            | interrupted => exact absurd rfl hgiven
            | _ => rfl
          rw [withoutInterruptions, List.filter_cons_of_pos hcalm]
          rfl
      | data bs =>
          obtain ⟨rfl, rfl⟩ := Prod.mk.inj h
          have hcalm : withoutInterruptions (.data bs :: rest) =
              .data bs :: withoutInterruptions rest := rfl
          rw [hcalm, read]
          cases bs.drop want <;> rfl

/-- How an intake goes on after a read, by what the read gave. -/
def takeInAfter (limit : Nat) (received : Bytes) (want : Nat) :
    Except ReadFault Bytes → List Delivery → Intake
  | .ok [], left => ⟨.ok received, [want], left⟩
  | .ok (b :: more), left =>
    let next := takeIn limit (received ++ b :: more) left
    { next with asked := want :: next.asked }
  | .error .interrupted, left =>
    let next := takeIn limit received left
    { next with asked := want :: next.asked }
  | .error why, left => ⟨.error why, [want], left⟩

theorem takeIn_of_wanted_none {limit : Nat} {received : Bytes} {script : List Delivery}
    (hwant : wanted? limit received = none) :
    takeIn limit received script = ⟨.ok received, [], script⟩ := by
  rw [takeIn]
  split
  · rfl
  · next heq =>
      rw [hwant] at heq
      contradiction

theorem takeIn_of_read {limit want : Nat} {received : Bytes} {script left : List Delivery}
    {given : Except ReadFault Bytes} (hwant : wanted? limit received = some want)
    (hread : read want script = (given, left)) :
    takeIn limit received script = takeInAfter limit received want given left := by
  rw [takeIn]
  split
  · next heq =>
      rw [hwant] at heq
      contradiction
  · next found heq =>
      obtain rfl : want = found := Option.some.inj (hwant.symm.trans heq)
      split <;> next heq =>
        obtain ⟨rfl, rfl⟩ := Prod.mk.inj (hread.symm.trans heq)
        simp_all [takeInAfter]

/-- A read that fails takes the failure from the script, and nothing else. -/
theorem read_eq_error {want : Nat} {script left : List Delivery} {why : ReadFault}
    (h : read want script = (.error why, left)) : script = .fault why :: left := by
  cases script with
  | nil => simp [read] at h
  | cons first rest =>
      cases first with
      | data bs => simp [read] at h
      | fault found =>
          obtain ⟨hwhy, rfl⟩ := Prod.mk.inj h
          rw [Except.error.inj hwhy]

/-- Interruptions change nothing but the number of reads. -/
theorem takeIn_withoutInterruptions (limit : Nat) (received : Bytes) (script : List Delivery) :
    (takeIn limit received (withoutInterruptions script)).result =
        (takeIn limit received script).result ∧
      (takeIn limit received (withoutInterruptions script)).left =
        withoutInterruptions (takeIn limit received script).left := by
  fun_induction takeIn limit received script with
  | case1 received script hwant =>
      rw [takeIn_of_wanted_none hwant]
      exact ⟨rfl, rfl⟩
  | case2 received script want hwant left hread =>
      rw [takeIn_of_read hwant (read_withoutInterruptions hread (by simp))]
      exact ⟨rfl, rfl⟩
  | case3 received script want hwant b more left hread next ih =>
      rw [takeIn_of_read hwant (read_withoutInterruptions hread (by simp))]
      exact ih
  | case4 received script want hwant left hread next ih =>
      -- the interruption is the first of the script, and is left out
      have hcalm : withoutInterruptions script = withoutInterruptions left := by
        rw [read_eq_error hread]
        rfl
      rw [hcalm]
      exact ih
  | case5 received script want hwant why left hreal hread =>
      rw [takeIn_of_read hwant (read_withoutInterruptions hread (by simpa using hreal))]
      cases why with
      | interrupted => exact absurd rfl hreal
      | _ => exact ⟨rfl, rfl⟩

/-! ## Whole requests -/

theorem scriptWeight_eq (script : List Delivery) :
    scriptWeight script = (scriptData script).length + script.length := by
  induction script with
  | nil => rfl
  | cons first rest ih =>
      have hdata : scriptData (first :: rest) = first.bytes ++ scriptData rest := rfl
      rw [scriptWeight, ih, hdata, List.length_append, List.length_cons]
      omega

/-- Whatever a connection delivers, and whatever the limit is, the intake of a request
comes to an end, and can be accounted for read by read; and interruptions make no
difference to it. -/
theorem receive_by_turns (limit : Nat) (script : List Delivery) :
    ∃ turns, Account limit [] script turns (receive limit script) ∧
      turns.length ≤ (scriptData script).length + script.length + 1 ∧
      (receive limit (withoutInterruptions script)).result = (receive limit script).result ∧
      (receive limit (withoutInterruptions script)).left =
        withoutInterruptions (receive limit script).left := by
  have hnothing : ([] : Bytes).length ≤ limit := Nat.zero_le limit
  obtain ⟨turns, haccount, hfew⟩ := @takeIn_accounts limit [] script hnothing
  rw [scriptWeight_eq] at hfew
  exact ⟨turns, haccount, hfew, takeIn_withoutInterruptions limit [] script⟩

end SiteServer.Connection
