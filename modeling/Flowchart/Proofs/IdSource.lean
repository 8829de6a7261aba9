import Flowchart.IdSource
import Flowchart.Proofs.Align
import Flowchart.Proofs.Numeral

/-!
# When identifiers repeat

The identifiers that one source hands out, for nodes and for edges in any order. An identifier ends
with a stamp of the clock and the count of its request, with nothing between the two. So two requests
of one source can have the same identifier, but only if the later one, whose count is not shorter, has
a shorter stamp (`IdSource.length_stampField_lt`). As long as the clock does not go back this does not
happen, and all identifiers are different (`IdSource.repeats_only_if_stamp_shrinks`).
-/

set_option autoImplicit false

namespace Flowchart

/-! ## Requests -/

/-- What a source can be asked for: an identifier for a node, or for an edge between two nodes. -/
inductive IdRequest where
  | node
  | edge (source target : Text)
  deriving DecidableEq

namespace IdRequest

/-- Whether the identifier is for a node. -/
def isNode : IdRequest → Bool
  | node => true
  | edge _ _ => false

/-- What stands before the stamp: the letters for a node, the ends of an edge. -/
def lead (letters : Text) : IdRequest → Text
  | node => letters
  | edge source target => 'e' :: source ++ '-' :: target ++ ['-']

/-- What an identifier shows of a clock stamp: its last four digits for a node, all of it for an
edge. -/
def stampField (stamp : Text) : IdRequest → Text
  | node => IdSource.lastFour stamp
  | edge _ _ => stamp

end IdRequest

namespace IdSource

/-- The answer to a request. -/
def answer (s : IdSource) : IdRequest → Except ClockError Text
  | .node => s.nodeId
  | .edge source target => s.edgeId source target

/-- The answers to requests, one after the other. -/
def answers (s : IdSource) : List IdRequest → List (Except ClockError Text)
  | [] => []
  | r :: rest => s.answer r :: s.next.answers rest

/-- The source after a number of requests. -/
def after (s : IdSource) (n : Nat) : IdSource := { s with count := s.count + n }

theorem next_after (s : IdSource) (n : Nat) : s.next.after n = s.after (n + 1) := by
  simp only [after, next, Nat.add_assoc, Nat.add_comm 1 n]

/-- Each request is answered by the source after those before it. -/
theorem getElem?_answers (s : IdSource) (rs : List IdRequest) (i : Nat) :
    (s.answers rs)[i]? = rs[i]?.map (s.after i).answer := by
  induction rs generalizing s i with
  | nil => simp [answers]
  | cons r rest ih =>
      cases i with
      | zero => rfl
      | succ i => rw [answers, List.getElem?_cons_succ, List.getElem?_cons_succ, ih, next_after]

theorem exists_request {s : IdSource} {rs : List IdRequest} {i : Nat} {id : Text}
    (h : (s.answers rs)[i]? = some (.ok id)) :
    ∃ r, rs[i]? = some r ∧ (s.after i).answer r = .ok id := by
  rw [getElem?_answers] at h
  exact Option.map_eq_some_iff.mp h

/-! ## The parts of an identifier -/

/-- An identifier is made of what the request and the letters give, the stamp and the count. -/
theorem answer_eq_ok_iff (s : IdSource) (r : IdRequest) (id : Text) :
    s.answer r = .ok id ↔
      ∃ stamp, s.stamp = .ok stamp ∧
        id = r.lead s.letterPair ++ (r.stampField stamp ++ s.countText) := by
  have hid : s.answer r = s.stamp.map fun stamp =>
      r.lead s.letterPair ++ (r.stampField stamp ++ s.countText) := by
    cases r <;> simp [answer, nodeId, edgeId, IdRequest.lead, IdRequest.stampField]
  rw [hid]
  cases s.stamp with
  | error e => simp [Except.map]
  | ok stamp => simp [Except.map, eq_comm]

theorem exists_milliseconds {s : IdSource} {stamp : Text} (h : s.stamp = .ok stamp) :
    ∃ m, milliseconds (s.readings s.count) = .ok m ∧ stamp = Numeral.base36 m := by
  unfold IdSource.stamp at h
  cases hm : milliseconds (s.readings s.count) with
  | error e => simp [hm, Except.map] at h
  | ok m => exact ⟨m, rfl, by simpa [hm, Except.map] using h.symm⟩

theorem lastFour_subset (t : Text) : lastFour t ⊆ t := List.drop_subset _ _

theorem length_lastFour (t : Text) : (lastFour t).length = min 4 t.length := by
  rw [lastFour, List.length_drop]
  omega

/-- A stamp and a count are word characters throughout. -/
theorem isIdentifierPart_of_mem_field {s : IdSource} {r : IdRequest} {stamp : Text}
    (h : s.stamp = .ok stamp) {c : Char} (hc : c ∈ r.stampField stamp ++ s.countText) :
    Text.isIdentifierPart c = true := by
  obtain ⟨m, -, rfl⟩ := exists_milliseconds h
  rcases List.mem_append.mp hc with hc | hc
  · refine Numeral.isIdentifierPart_of_mem_ofNat (b := 34) (n := m.toNat) le_rfl ?_
    cases r with
    | node => exact lastFour_subset _ hc
    | edge source target => exact hc
  · exact Numeral.isIdentifierPart_of_mem_ofNat le_rfl hc

theorem isIdentifierStart_capitalLetter :
    ∀ place, Text.isIdentifierStart (capitalLetter place) = true := by decide

theorem capitalLetter_ne_e : ∀ place, capitalLetter place ≠ 'e' := by decide

/-- An identifier for a node is an identifier of a diagram. -/
theorem isIdentifier_of_nodeId {s : IdSource} {id : Text} (h : s.nodeId = .ok id) :
    Text.isIdentifier id = true := by
  obtain ⟨stamp, hstamp, rfl⟩ := (answer_eq_ok_iff s .node id).mp h
  rw [IdRequest.lead, letterPair, List.cons_append, Text.isIdentifier_cons_iff]
  refine ⟨isIdentifierStart_capitalLetter _, ?_⟩
  intro d hd
  rcases List.mem_cons.mp hd with rfl | hd
  · exact Text.isIdentifierPart_of_isIdentifierStart (isIdentifierStart_capitalLetter _)
  · exact isIdentifierPart_of_mem_field hstamp hd

/-! ## Two requests with one identifier -/

/-- Equal identifiers are of one kind and agree from their stamps on. -/
theorem field_eq_of_answer_eq {s s' : IdSource} {r r' : IdRequest} {stamp stamp' : Text}
    (hstamp : s.stamp = .ok stamp) (hstamp' : s'.stamp = .ok stamp')
    (h : r.lead s.letterPair ++ (r.stampField stamp ++ s.countText) =
      r'.lead s'.letterPair ++ (r'.stampField stamp' ++ s'.countText)) :
    r.isNode = r'.isNode ∧
      r.stampField stamp ++ s.countText = r'.stampField stamp' ++ s'.countText := by
  have hdash : ∀ {s : IdSource} {r : IdRequest} {stamp : Text}, s.stamp = .ok stamp →
      '-' ∉ r.stampField stamp ++ s.countText := by
    intro s r stamp hs hmem
    have hpart := isIdentifierPart_of_mem_field hs hmem
    revert hpart
    decide
  -- a capital letter begins the identifier of a node, a small one that of an edge
  cases r with
  | node =>
      cases r' with
      | node => exact ⟨rfl, (List.append_inj h rfl).2⟩
      | edge source' target' =>
          exact absurd (List.cons.inj h).1 (capitalLetter_ne_e _)
  | edge source target =>
      cases r' with
      | node => exact absurd (List.cons.inj h).1.symm (capitalLetter_ne_e _)
      | edge source' target' =>
          -- the last dash stands before the stamp, whatever the ends hold
          have hcut : ('e' :: source ++ '-' :: target) ++ '-' ::
                ((IdRequest.edge source target).stampField stamp ++ s.countText) =
              ('e' :: source' ++ '-' :: target') ++ '-' ::
                ((IdRequest.edge source' target').stampField stamp' ++ s'.countText) := by
            simpa [IdRequest.lead] using h
          exact ⟨rfl, (cut_last (hdash hstamp) (hdash hstamp') hcut).2⟩

/-- Where a later count follows a shown stamp to the same text, the stamp is shorter. -/
theorem length_lt_of_append_eq {f f' : Text} {m n : Nat} (hmn : m < n)
    (h : f ++ Numeral.ofNat 34 m = f' ++ Numeral.ofNat 34 n) : f'.length < f.length := by
  have hlength := congrArg List.length h
  rw [List.length_append, List.length_append] at hlength
  have hcount := Numeral.length_ofNat_mono 34 hmn.le
  by_contra hle
  -- counts of one length would be equal
  have heq := (List.append_inj h (by omega)).2
  exact hmn.ne (Numeral.ofNat_injective le_rfl heq)

/-- Of two requests with one identifier, the later one has the shorter stamp. -/
theorem length_stampField_lt {s : IdSource} {i j : Nat} (hij : i < j) {r r' : IdRequest} {id : Text}
    (h : (s.after i).answer r = .ok id) (h' : (s.after j).answer r' = .ok id) :
    r.isNode = r'.isNode ∧ ∃ stamp stamp', (s.after i).stamp = .ok stamp ∧
      (s.after j).stamp = .ok stamp' ∧
      (r'.stampField stamp').length < (r.stampField stamp).length := by
  obtain ⟨stamp, hstamp, hid⟩ := (answer_eq_ok_iff _ r id).mp h
  obtain ⟨stamp', hstamp', hid'⟩ := (answer_eq_ok_iff _ r' id).mp h'
  obtain ⟨hkind, hfield⟩ := field_eq_of_answer_eq hstamp hstamp' (hid.symm.trans hid')
  exact ⟨hkind, stamp, stamp', hstamp, hstamp',
    length_lt_of_append_eq (Nat.add_lt_add_left hij s.count) hfield⟩

/-! ## A steady clock -/

/-- The clock does not go back during `n` requests: of the readings that are times, none is before
an earlier one. -/
def Steady (s : IdSource) (n : Nat) : Prop :=
  ∀ i j, i ≤ j → j < n → ∀ m m', milliseconds (s.readings (s.count + i)) = .ok m →
    milliseconds (s.readings (s.count + j)) = .ok m' → m ≤ m'

/-- What an identifier shows of a later time is not shorter. -/
theorem length_stampField_mono {r r' : IdRequest} (hkind : r.isNode = r'.isNode) {m m' : Int}
    (h : m ≤ m') :
    (r.stampField (Numeral.base36 m)).length ≤ (r'.stampField (Numeral.base36 m')).length := by
  have hstamp : (Numeral.base36 m).length ≤ (Numeral.base36 m').length :=
    Numeral.length_ofNat_mono 34 (Int.toNat_le_toNat h)
  cases r with
  | node =>
      cases r' with
      | node =>
          rw [IdRequest.stampField, IdRequest.stampField, length_lastFour, length_lastFour]
          omega
      | edge source' target' => cases hkind
  | edge source target =>
      cases r' with
      | node => cases hkind
      | edge source' target' => exact hstamp

/-- With a steady clock no identifier comes twice. -/
theorem answer_ne_of_steady {s : IdSource} {n : Nat} (hsteady : s.Steady n) {i j : Nat}
    (hij : i < j) (hj : j < n) {r r' : IdRequest} {id : Text}
    (h : (s.after i).answer r = .ok id) : (s.after j).answer r' ≠ .ok id := by
  intro h'
  obtain ⟨hkind, stamp, stamp', hstamp, hstamp', hlt⟩ := length_stampField_lt hij h h'
  obtain ⟨m, hm, rfl⟩ := exists_milliseconds hstamp
  obtain ⟨m', hm', rfl⟩ := exists_milliseconds hstamp'
  exact absurd hlt (Nat.not_lt.mpr
    (length_stampField_mono hkind (hsteady i j hij.le hj m m' hm hm')))

/-- **Identifiers repeat only if the stamp gets shorter.** Whatever the letters and the clock give:
if two requests to one source are answered with the same identifier, they are of the same kind and
the later one shows fewer characters of its stamp. While the clock is steady, all identifiers handed
out are different. Those for nodes are identifiers of a diagram. -/
theorem repeats_only_if_stamp_shrinks (s : IdSource) (rs : List IdRequest) :
    (∀ i j id, i < j → (s.answers rs)[i]? = some (.ok id) → (s.answers rs)[j]? = some (.ok id) →
      ∃ r r' stamp stamp', rs[i]? = some r ∧ rs[j]? = some r' ∧ r.isNode = r'.isNode ∧
        (s.after i).stamp = .ok stamp ∧ (s.after j).stamp = .ok stamp' ∧
        (r'.stampField stamp').length < (r.stampField stamp).length) ∧
      (s.Steady rs.length → ((s.answers rs).filterMap Except.toOption).Nodup) ∧
      ∀ (i : Nat) (id : Text), rs[i]? = some .node → (s.answers rs)[i]? = some (.ok id) →
        Text.isIdentifier id = true := by
  refine ⟨?_, ?_, ?_⟩
  · intro i j id hij hi hj
    obtain ⟨r, hr, hanswer⟩ := exists_request hi
    obtain ⟨r', hr', hanswer'⟩ := exists_request hj
    obtain ⟨hkind, stamp, stamp', hstamp, hstamp', hlt⟩ :=
      length_stampField_lt hij hanswer hanswer'
    exact ⟨r, r', stamp, stamp', hr, hr', hkind, hstamp, hstamp', hlt⟩
  · intro hsteady
    rw [List.Nodup, List.pairwise_filterMap, List.pairwise_iff_getElem]
    intro i j hi hj hij id hid id' hid' heq
    subst heq
    have hget : ∀ {k} (hk : k < (s.answers rs).length), (s.answers rs)[k].toOption = some id →
        (s.answers rs)[k]? = some (.ok id) := by
      intro k hk h
      rw [List.getElem?_eq_getElem hk]
      cases ha : (s.answers rs)[k] with
      | error e => simp [ha, Except.toOption] at h
      | ok id' => simpa [ha, Except.toOption] using h
    obtain ⟨r, -, hanswer⟩ := exists_request (hget hi hid)
    obtain ⟨r', hr', hanswer'⟩ := exists_request (hget hj hid')
    exact answer_ne_of_steady hsteady hij (List.getElem?_eq_some_iff.mp hr').1 hanswer hanswer'
  · intro i id hr hid
    obtain ⟨r, hr', hanswer⟩ := exists_request hid
    rw [hr, Option.some.injEq] at hr'
    subst hr'
    exact isIdentifier_of_nodeId hanswer

/-- A source whose clock goes back from 37 milliseconds to one after the first request. -/
def turnedBack : IdSource where
  letters _ := 0
  readings n := Binary64.ofDecimal false ⟨if n = 0 then 37 else 1, -3⟩

/-- The stamps `11` and `1` before the counts `0` and `10` make one identifier. -/
theorem repeats_turnedBack :
    (turnedBack.answers (List.replicate 37 .node))[0]? = some (.ok "AA110".toList) ∧
      (turnedBack.answers (List.replicate 37 .node))[36]? = some (.ok "AA110".toList) ∧
      ∃ r r' stamp stamp', (List.replicate 37 IdRequest.node)[0]? = some r ∧
        (List.replicate 37 IdRequest.node)[36]? = some r' ∧ r.isNode = r'.isNode ∧
        (turnedBack.after 0).stamp = .ok stamp ∧ (turnedBack.after 36).stamp = .ok stamp' ∧
        (r'.stampField stamp').length < (r.stampField stamp).length := by
  have hfirst : (turnedBack.answers (List.replicate 37 .node))[0]? = some (.ok "AA110".toList) := by
    decide +kernel
  have hlast : (turnedBack.answers (List.replicate 37 .node))[36]? = some (.ok "AA110".toList) := by
    decide +kernel
  exact ⟨hfirst, hlast, (repeats_only_if_stamp_shrinks turnedBack (List.replicate 37 .node)).1 0 36
    "AA110".toList (by decide) hfirst hlast⟩

end IdSource

end Flowchart
