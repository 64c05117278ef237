import BlockIndex.Extract.Go.Declaration
import BlockIndex.Proofs.Text.Lines

/-! The rows of the declarations of Go.  A parser puts each declaration of a source on bytes of it
(`Parser.Reads`); then the declaration starts in one of the lines and ends no earlier
(`Parser.Reads.within`). -/

namespace BlockIndex.Extract.Go

open Text

variable {source : List UInt8} {parse : Parser} {d : Declaration} {m n : Nat} {s : List Char}

/-! ### Places -/

theorem ofNat_ne_newline {k : Nat} (h : k % 256 ≠ 10) : UInt8.ofNat k ≠ 10 := fun e =>
  h (congrArg UInt8.toNat e)

/-- The bytes of a character other than the line feed hold none. -/
theorem newline_not_mem_encodeChar {c : Char} (h : c ≠ '\n') : 10 ∉ Utf8.encodeChar c := by
  have hc : c.toNat ≠ 10 := fun e => h (Char.ext (UInt32.toNat_inj.mp e))
  have hlead : ∀ low k, 0x80 ≤ low → low + k < 256 → (10 : UInt8) ≠ UInt8.ofNat (low + k) :=
    fun low k hlow hhigh => (ofNat_ne_newline (by omega)).symm
  unfold Utf8.encodeChar
  simp only
  split
  · simpa using (ofNat_ne_newline (k := c.toNat) (by omega)).symm
  split
  · simp only [List.mem_cons, List.not_mem_nil, or_false, not_or]
    exact ⟨hlead _ _ (by omega) (by omega), hlead _ _ (by omega) (by omega)⟩
  split
  · simp only [List.mem_cons, List.not_mem_nil, or_false, not_or]
    exact ⟨hlead _ _ (by omega) (by omega), hlead _ _ (by omega) (by omega),
      hlead _ _ (by omega) (by omega)⟩
  · have hvalid : c.toNat < 0xD800 ∨ 0xDFFF < c.toNat ∧ c.toNat < 0x110000 := c.valid
    simp only [List.mem_cons, List.not_mem_nil, or_false, not_or]
    exact ⟨hlead _ _ (by omega) (by omega), hlead _ _ (by omega) (by omega),
      hlead _ _ (by omega) (by omega), hlead _ _ (by omega) (by omega)⟩

theorem length_lineChars_le (c : Char) (s : List Char) :
    (lineChars s).length ≤ (lineChars (c :: s)).length ∧ 1 ≤ (lineChars (c :: s)).length := by
  simp only [lineChars]
  split
  · rw [List.length_cons]
    omega
  · split
    · next hnil =>
      rw [hnil, List.length_nil, List.length_singleton]
      omega
    · next hcons =>
      rw [hcons, List.length_cons, List.length_cons]
      omega

/-- Every byte of a text lies in one of its lines. -/
theorem count_take_lt (h : n < (Utf8.encode s).length) :
    ((Utf8.encode s).take n).count 10 < (lineChars s).length := by
  induction s generalizing n with
  | nil => cases h
  | cons c s ih =>
    have hencode : Utf8.encode (c :: s) = Utf8.encodeChar c ++ Utf8.encode s := rfl
    have hlines := length_lineChars_le c s
    rw [hencode, List.length_append] at h
    rw [hencode, List.take_append, List.count_append]
    by_cases hc : c = '\n'
    · subst hc
      have hbytes : Utf8.encodeChar '\n' = [10] := rfl
      have hlength : (lineChars ('\n' :: s)).length = (lineChars s).length + 1 := rfl
      rw [hbytes] at h ⊢
      cases n with
      | zero => exact Nat.lt_of_lt_of_le Nat.zero_lt_one hlines.2
      | succ n =>
        have hrest := ih (n := n) (by rw [List.length_singleton] at h; omega)
        rw [List.take_succ_cons, List.take_nil, List.count_singleton_self, List.length_singleton,
          Nat.add_sub_cancel]
        omega
    · have hfirst : ((Utf8.encodeChar c).take n).count 10 = 0 :=
        List.count_eq_zero.mpr fun hmem =>
          newline_not_mem_encodeChar hc (List.mem_of_mem_take hmem)
      by_cases hn : n < (Utf8.encodeChar c).length
      · have hnone : n - (Utf8.encodeChar c).length = 0 := by omega
        rw [hfirst, hnone, List.take_zero, List.count_nil]
        omega
      · have hrest := ih (n := n - (Utf8.encodeChar c).length) (by omega)
        omega

/-! ### Nodes -/

/-- A node covers some bytes of a source and says where these begin and end. -/
structure Node.LiesIn (source : List UInt8) (n : Node) : Prop where
  nonempty : n.extent.first < n.extent.past
  past_le : n.extent.past ≤ source.length
  start_eq : n.extent.start = Point.of source n.extent.first
  stop_eq : n.extent.stop = Point.of source n.extent.past

/-- What is relied on of a parser that reads a source without errors: each declaration lies in the
source, and the name of a type is on one line. -/
structure Parser.Reads (parse : Parser) (source : List UInt8) : Prop where
  lies : ∀ n ∈ (parse source).preorder, (n.declared? source).isSome → n.LiesIn source
  oneLine : ∀ n ∈ (parse source).preorder, n.kind = "type_identifier" →
    '\n' ∉ (n.text source).toList

/-- A declaration starts in one of `n` lines and ends no earlier. -/
structure Declaration.Within (n : Nat) (d : Declaration) : Prop where
  row_lt : d.row < n
  row_le : d.row ≤ d.lastRow

theorem Node.LiesIn.row_le {n : Node} (h : n.LiesIn source) :
    n.extent.start.row ≤ n.extent.lastRow := by
  have hrows : n.extent.start.row ≤ n.extent.stop.row := by
    have hprefix : (source.take n.extent.first).Sublist (source.take n.extent.past) :=
      (List.take_prefix_take_left (Nat.le_of_lt h.nonempty)).sublist
    rw [h.start_eq, h.stop_eq]
    exact hprefix.count_le 10
  unfold Extent.lastRow
  split <;> omega

/-- The declarations of a source lie within its lines. -/
theorem Parser.Reads.within (h : parse.Reads (Utf8.encode s))
    (hd : d ∈ declarations parse (Utf8.encode s)) : d.Within (lineChars s).length := by
  obtain ⟨n, hn, hmake⟩ := List.mem_filterMap.mp hd
  obtain ⟨declared, hdeclared, rfl⟩ := Option.map_eq_some_iff.mp hmake
  have hlies := h.lies n hn (hdeclared ▸ rfl)
  refine ⟨?_, hlies.row_le⟩
  rw [hlies.start_eq]
  exact count_take_lt (Nat.lt_of_lt_of_le hlies.nonempty hlies.past_le)

/-! ### Receivers -/

namespace Node

theorem mem_preorders {x n : Node} {ns : List Node} (hn : n ∈ ns) (hx : x ∈ n.preorder) :
    x ∈ preorders ns := by
  induction ns with
  | nil => cases hn
  | cons y ns ih =>
    rcases List.mem_cons.mp hn with rfl | hn
    · exact List.mem_append_left _ hx
    · exact List.mem_append_right _ (ih hn)

theorem mem_preorder_of_mem_children {x n : Node} {m : Node} (hm : m ∈ n.children)
    (hx : x ∈ m.preorder) : x ∈ n.preorder := by
  cases n with
  | node k f e cs => exact List.mem_cons_of_mem _ (mem_preorders hm hx)

mutual

/-- What is below a node of a tree is in the tree. -/
theorem mem_preorder_trans {x n : Node} : (r : Node) → n ∈ r.preorder → x ∈ n.preorder →
    x ∈ r.preorder
  | node k f e cs, hn, hx => by
    rcases List.mem_cons.mp hn with rfl | hn
    · exact hx
    · exact List.mem_cons_of_mem _ (mem_preorders_trans cs hn hx)

theorem mem_preorders_trans {x n : Node} : (ns : List Node) → n ∈ preorders ns →
    x ∈ n.preorder → x ∈ preorders ns
  | [], hn, _ => nomatch hn
  | r :: ns, hn, hx => by
    rcases List.mem_append.mp hn with hn | hn
    · exact List.mem_append_left _ (mem_preorder_trans r hn hx)
    · exact List.mem_append_right _ (mem_preorders_trans ns hn hx)

end

mutual

/-- A type that is named in a tree is the text of one of its nodes. -/
theorem exists_of_typeIn? {t : String} : (n : Node) → n.typeIn? source = some t →
    ∃ m ∈ n.preorder, m.kind = "type_identifier" ∧ m.text source = t
  | node k f e cs, h => by
    unfold typeIn? at h
    split at h
    · next hk => exact ⟨node k f e cs, List.mem_cons_self, hk, Option.some.inj h⟩
    · obtain ⟨m, hm, hnamed⟩ := exists_of_typeAmong? cs h
      exact ⟨m, List.mem_cons_of_mem _ hm, hnamed⟩

theorem exists_of_typeAmong? {t : String} : (ns : List Node) →
    typeAmong? source ns = some t →
      ∃ m ∈ preorders ns, m.kind = "type_identifier" ∧ m.text source = t
  | [], h => nomatch h
  | n :: ns, h => by
    have hcases : n.typeIn? source = some t ∨ typeAmong? source ns = some t := by
      unfold typeAmong? at h
      split at h
      · next u hu =>
        split at h
        · exact .inr h
        · exact .inl (hu.trans h)
      · exact .inr h
    rcases hcases with hfirst | hrest
    · obtain ⟨m, hm, hnamed⟩ := exists_of_typeIn? n hfirst
      exact ⟨m, List.mem_append_left _ hm, hnamed⟩
    · obtain ⟨m, hm, hnamed⟩ := exists_of_typeAmong? ns hrest
      exact ⟨m, List.mem_append_right _ hm, hnamed⟩

end

theorem declared?_eq_method {n : Node} {receiver name : Option String}
    (h : n.declared? source = some (.method receiver name)) :
    receiver = (n.child? "receiver").bind (typeIn? source) := by
  unfold declared? at h
  split at h
  · cases h
  split at h
  · cases h
    rfl
  split at h <;> cases h

end Node

/-- The receiver of a method is named on one line. -/
theorem Parser.Reads.oneLine_receiver (h : parse.Reads source) (hd : d ∈ declarations parse source)
    {c : String} {name : Option String} (hmethod : d.declared = .method (some c) name) :
    '\n' ∉ c.toList := by
  obtain ⟨n, hn, hmake⟩ := List.mem_filterMap.mp hd
  obtain ⟨declared, hdeclared, rfl⟩ := Option.map_eq_some_iff.mp hmake
  cases hmethod
  obtain ⟨receiver, hchild, htype⟩ :=
    Option.bind_eq_some_iff.mp (Node.declared?_eq_method hdeclared).symm
  obtain ⟨m, hm, hkind, rfl⟩ := Node.exists_of_typeIn? receiver htype
  have hbelow : m ∈ n.preorder :=
    Node.mem_preorder_of_mem_children (List.mem_of_find?_eq_some hchild) hm
  exact h.oneLine m (Node.mem_preorder_trans _ hn hbelow) hkind

end BlockIndex.Extract.Go
