import Waf.Lib.Position
import Waf.Admin

/-!
# Reading a request

`read_request` of `admin.rs` on what a client sends, in the reads that it comes in. The header loop looks
for the empty line in all that has been read, and gives up beyond 64 KiB. Then the body is what was read
behind the empty line, with further reads up to the announced length.

The limit is on what has been read, the beginning of the body included. So a header that ends less than
one read below the limit is taken or refused by how the bytes come in. `readRequest_stable_iff` says that
this is the only case.
-/

namespace Waf.Admin
open Lib

/-! ## Reads -/

/-- What a read returns before the connection is closed. -/
structure Read where
  bytes : List UInt8
  ne : bytes ≠ []
  le : bytes.length ≤ 4096

/-- The bytes of some reads. -/
def received (d : List Read) : List UInt8 := d.flatMap Read.bytes

def findDoubleCrlf (b : List UInt8) : Option Nat := position doubleCrlf b

/-- The header loop, after some bytes: all that has been read, the position of the empty line, and the
reads that are left. A read fits into its buffer. -/
def readHeader (buf : List UInt8) : List Read → Option (List UInt8 × Nat × List Read)
  | [] => none
  | r :: d =>
    let buf := buf ++ r.bytes
    let headerEnd := findDoubleCrlf buf
    if 64 * 1024 < buf.length then none
    else
      match headerEnd with
      | some p => some (buf, p, d)
      | none => readHeader buf d

/-- The body loop. What a read returns beyond the bytes that are needed is not taken, and nothing is
read after it. -/
def readBody (contentLength : Nat) (body : List UInt8) : List Read → List UInt8
  | [] => body
  | r :: d =>
    if body.length < contentLength then
      let need := contentLength - body.length
      readBody contentLength (body ++ r.bytes.take (min need 8192)) d
    else body

/-! ## The header -/

/-- `std::str::from_utf8`. -/
def fromUtf8 (b : List UInt8) : Option Str := b.toByteArray.utf8Decode?.map Array.toList

/-- `split("\r\n")`. -/
def splitCrlf : Str → List Str
  | [] => [[]]
  | '\r' :: '\n' :: s => [] :: splitCrlf s
  | c :: s => (splitCrlf s).modifyHead (c :: ·)

/-- `split_whitespace`. -/
def splitWhitespace (s : Str) : List Str := (s.splitOnP isSpace).filter fun word => !word.isEmpty

/-- What a header says. -/
structure Head where
  method : Str
  path : Str
  query : Str
  headers : HashMap Str Str
  contentLength : Nat

/-- The headers and the length of the body, with one more line. -/
def addHeader (acc : HashMap Str Str × Nat) (h : Str) : HashMap Str Str × Nat :=
  match splitOnce ':' h with
  | none => acc
  | some (k, v) =>
    let k := toAsciiLower (trim k)
    let v := trim v
    let contentLength :=
      if k = "content-length".toList then min ((parseU64 v).getD 0) (2 ^ 20) else acc.2
    (acc.1.insert k v, contentLength)

def parseHead (head : Str) : Head :=
  let lines := splitCrlf head
  let it := splitWhitespace (lines.headD [])
  let target := it.tail.headD "/"
  let split := (splitOnce '?' target).getD (target, [])
  let acc := lines.tail.foldl addHeader (∅, 0)
  { method := it.headD []
    path := split.1
    query := split.2
    headers := acc.1
    contentLength := acc.2 }

def parseQuery (crates : Crates) (s : Str) : HashMap Str Str :=
  (s.splitOn '&').foldl (fun m kv =>
    if kv.isEmpty then m
    else
      let split := (splitOnce '=' kv).getD (kv, [])
      m.insert (decode crates split.1) (decode crates split.2)) ∅

/-- The request with a header and a body. -/
def Head.request (crates : Crates) (h : Head) (body : List UInt8) : ParsedReq where
  method := h.method
  path := h.path
  query := parseQuery crates h.query
  headers := h.headers
  body := body

/-- The header of the bytes in front of the empty line. -/
def headOf (b : List UInt8) : Head := parseHead ((fromUtf8 b).getD [])

def readRequest (crates : Crates) (d : List Read) : Option ParsedReq :=
  match readHeader [] d with
  | none => none
  | some (buf, headerEnd, rest) =>
    let head := headOf (buf.take headerEnd)
    let body := readBody head.contentLength (buf.drop (headerEnd + 4)) rest
    some (head.request crates (body.take head.contentLength))

/-! ## The body -/

variable {crates : Crates} {stream buf body : List UInt8} {d d' rest : List Read} {r : Read}
  {p n k : Nat}

/-- However the reads cut the body, it is the first bytes behind the header. -/
lemma take_readBody : (readBody n body d).take n = (body ++ received d).take n := by
  induction d generalizing body with
  | nil =>
    rw [readBody, received, List.flatMap_nil, List.append_nil]
  | cons r d ih =>
    -- whether all of the read is needed
    have hreceived : received (r :: d) = r.bytes ++ received d := rfl
    have hle := r.le
    rw [readBody, hreceived]
    split
    case isFalse h =>
      rw [List.take_append_of_le_length (Nat.le_of_not_lt h)]
    case isTrue h =>
      rw [ih]
      by_cases hfit : r.bytes.length ≤ n - body.length
      case pos =>
        rw [List.take_of_length_le (l := r.bytes) (by omega), List.append_assoc]
      case neg =>
        -- the read has more than is needed, and the loop ends with it
        have hmin : min (n - body.length) 8192 = n - body.length := by omega
        have hfull : (body ++ r.bytes.take (n - body.length)).length = n := by
          rw [List.length_append, List.length_take]
          omega
        have hneed : (r.bytes ++ received d).take (n - body.length)
            = r.bytes.take (n - body.length) := List.take_append_of_le_length (by omega)
        rw [hmin, List.take_left' hfull, List.take_append, List.take_of_length_le (Nat.le_of_lt h),
          hneed]

/-! ## The header -/

lemma doubleCrlf_ne : doubleCrlf ≠ [] := List.cons_ne_nil _ _

/-- What the header loop ends with: all that it has read, within the limit. -/
lemma readHeader_some (h : readHeader buf d = some (body, p, rest)) :
    body ++ received rest = buf ++ received d ∧ findDoubleCrlf body = some p
      ∧ body.length ≤ 64 * 1024 := by
  induction d generalizing buf with
  | nil => cases h
  | cons r d ih =>
    have hreceived : received (r :: d) = r.bytes ++ received d := rfl
    rw [readHeader] at h
    split at h
    case isTrue => cases h
    case isFalse hlimit =>
      rw [hreceived, ← List.append_assoc]
      split at h
      case h_1 q hq =>
        cases h
        exact ⟨rfl, hq, Nat.le_of_not_lt hlimit⟩
      case h_2 => exact ih h

/-- The header loop comes to an end with the empty line if no read that finishes it goes beyond the
limit, all reads having at most `k` bytes. -/
lemma readHeader_found (hbuf : findDoubleCrlf buf = none)
    (hp : findDoubleCrlf (buf ++ received d) = some p) (hk : ∀ r ∈ d, r.bytes.length ≤ k)
    (hlimit : (buf ++ received d).length ≤ 64 * 1024 ∨ p + 3 + k ≤ 64 * 1024) :
    ∃ stop, readHeader buf d = some stop := by
  induction d generalizing buf with
  | nil =>
    rw [received, List.flatMap_nil, List.append_nil, hbuf] at hp
    cases hp
  | cons r d ih =>
    have hreceived : buf ++ received (r :: d) = (buf ++ r.bytes) ++ received d :=
      (List.append_assoc _ _ _).symm
    rw [hreceived] at hp hlimit
    -- the empty line is not complete before this read
    have hstart : buf.length ≤ p + 3 := by
      by_contra hlt
      rw [List.append_assoc] at hp
      have hfound : findDoubleCrlf buf = some p :=
        position_of_append doubleCrlf_ne hp (Nat.lt_of_not_le hlt)
      rw [hbuf] at hfound
      cases hfound
    have hread := hk r (.head _)
    have hlen : ¬ 64 * 1024 < (buf ++ r.bytes).length := by
      cases hlimit with
      | inl hall =>
        rw [List.length_append] at hall
        omega
      | inr hend =>
        rw [List.length_append]
        omega
    rw [readHeader]
    simp only [if_neg hlen]
    cases hf : findDoubleCrlf (buf ++ r.bytes) with
    | some q => exact ⟨_, rfl⟩
    | none => exact ih hf hp (fun r hr => hk r (.tail _ hr)) hlimit

/-- What is in no longer text is not in a shorter one. -/
lemma findDoubleCrlf_none (h : findDoubleCrlf (buf ++ body) = none) : findDoubleCrlf buf = none := by
  cases hf : findDoubleCrlf buf with
  | none => rfl
  | some p =>
    rw [findDoubleCrlf, position_append doubleCrlf_ne hf] at h
    cases h

/-- What stands before the last byte of the empty line does not have it. -/
lemma findDoubleCrlf_front (hp : findDoubleCrlf (buf ++ body) = some p) (hle : buf.length ≤ p + 3) :
    findDoubleCrlf buf = none := by
  cases hf : findDoubleCrlf buf with
  | none => rfl
  | some q =>
    have hq : q + 4 ≤ buf.length := position_le doubleCrlf_ne hf
    have hsame := position_append (t := body) doubleCrlf_ne hf
    obtain rfl := Option.some.inj (hp.symm.trans hsame)
    omega

/-- The header loop goes through reads without the empty line, within the limit. -/
lemma readHeader_append (hnone : findDoubleCrlf (buf ++ received d) = none)
    (hlen : (buf ++ received d).length ≤ 64 * 1024) :
    readHeader buf (d ++ d') = readHeader (buf ++ received d) d' := by
  induction d generalizing buf with
  | nil => rw [received, List.flatMap_nil, List.append_nil, List.nil_append]
  | cons r d ih =>
    have hreceived : buf ++ received (r :: d) = (buf ++ r.bytes) ++ received d :=
      (List.append_assoc _ _ _).symm
    rw [hreceived] at hnone hlen ⊢
    have hshort : ¬ 64 * 1024 < (buf ++ r.bytes).length := by
      rw [List.length_append] at hlen
      omega
    rw [List.cons_append, readHeader]
    simp only [if_neg hshort, findDoubleCrlf_none hnone]
    exact ih hnone hlen

/-! ## The request -/

/-- The request of a stream with its empty line at a position. -/
def requestAt (crates : Crates) (stream : List UInt8) (p : Nat) : ParsedReq :=
  let head := headOf (stream.take p)
  head.request crates ((stream.drop (p + 4)).take head.contentLength)

/-- What is read is the request of the stream, however it comes in. -/
lemma readRequest_eq (crates : Crates) {stop : List UInt8 × Nat × List Read}
    (h : readHeader [] d = some stop) :
    findDoubleCrlf (received d) = some stop.2.1
      ∧ readRequest crates d = some (requestAt crates (received d) stop.2.1) := by
  obtain ⟨buf, p, rest⟩ := stop
  obtain ⟨hstream, hp, -⟩ := readHeader_some h
  rw [List.nil_append] at hstream
  have hle : p + 4 ≤ buf.length := position_le doubleCrlf_ne hp
  have hhead : (received d).take p = buf.take p := by
    rw [← hstream, List.take_append_of_le_length (by omega)]
  have hbody : (received d).drop (p + 4) = buf.drop (p + 4) ++ received rest := by
    rw [← hstream, List.drop_append_of_le_length hle]
  constructor
  · rw [← hstream]
    exact position_append doubleCrlf_ne hp
  · rw [readRequest, h]
    simp only [requestAt, hhead, hbody, take_readBody]

/-- Without a header there is no request. -/
lemma readRequest_none (h : readHeader [] d = none) : readRequest crates d = none := by
  rw [readRequest, h]

/-- A header beyond the limit is refused, however it comes in. -/
lemma readHeader_late (hp : findDoubleCrlf (received d) = some p) (hlate : 64 * 1024 < p + 4) :
    readHeader [] d = none := by
  cases h : readHeader [] d with
  | none => rfl
  | some stop =>
    obtain ⟨buf, q, rest⟩ := stop
    obtain ⟨hstream, hq, hlen⟩ := readHeader_some h
    have hle : q + 4 ≤ buf.length := position_le doubleCrlf_ne hq
    have hsame := position_append (t := received rest) doubleCrlf_ne hq
    rw [hstream, List.nil_append] at hsame
    obtain rfl := Option.some.inj (hp.symm.trans hsame)
    omega

/-! ## Two ways of delivery -/

/-- Each byte in a read of its own. -/
def singly (s : List UInt8) : List Read :=
  s.map fun b => ⟨[b], List.cons_ne_nil _ _, (by decide : 1 ≤ 4096)⟩

/-- Single bytes are the stream. -/
lemma received_singly : received (singly stream) = stream := by
  induction stream with
  | nil => rfl
  | cons b stream ih => exact congrArg (b :: ·) ih

lemma received_append : received (d ++ d') = received d ++ received d' := List.flatMap_append

/-- Some bytes one by one, then a read, and the others one by one. -/
def lumped (front : List UInt8) (lump : Read) (back : List UInt8) : List Read :=
  singly front ++ lump :: singly back

/-- A read in the middle is received between the bytes around it. -/
lemma received_lumped {front back : List UInt8} :
    received (lumped front r back) = front ++ (r.bytes ++ back) := by
  rw [lumped, received_append, received_singly]
  exact congrArg (fun b => front ++ (r.bytes ++ b)) received_singly

/-- One by one, a header within the limit is taken. -/
lemma readHeader_singly (hp : findDoubleCrlf stream = some p) (hle : p + 4 ≤ 64 * 1024) :
    ∃ stop, readHeader [] (singly stream) = some stop := by
  apply readHeader_found (p := p) (k := 1) rfl
  · rw [List.nil_append, received_singly]
    exact hp
  · intro r hr
    obtain ⟨b, -, rfl⟩ := List.mem_map.mp hr
    exact Nat.le_refl 1
  · exact .inr hle

/-- A header is refused if the read that finishes it goes beyond the limit. -/
lemma readHeader_lumped {front back : List UInt8} (hfront : front.length ≤ 64 * 1024)
    (hnone : findDoubleCrlf front = none) (hlong : 64 * 1024 < (front ++ r.bytes).length) :
    readHeader [] (lumped front r back) = none := by
  have hskip := @readHeader_append [] (singly front) (r :: singly back)
  rw [List.nil_append, received_singly] at hskip
  rw [lumped, hskip hnone hfront, readHeader]
  simp only [if_pos hlong]

/-! ## When the reads do not matter -/

/-- The stream has at most 64 KiB, or its header ends at least a read below the limit, or beyond it. -/
def Stable (stream : List UInt8) : Prop := ∀ p, findDoubleCrlf stream = some p →
  stream.length ≤ 64 * 1024 ∨ p + 4 + 4096 ≤ 64 * 1024 + 1 ∨ 64 * 1024 < p + 4

/-- The request of a stream. -/
def wholeRequest (crates : Crates) (stream : List UInt8) : Option ParsedReq :=
  (findDoubleCrlf stream).bind fun p =>
    if 64 * 1024 < p + 4 then none else some (requestAt crates stream p)

/-- A stable stream is read as its request, however it comes in. -/
lemma readRequest_stable (h : Stable (received d)) :
    readRequest crates d = wholeRequest crates (received d) := by
  unfold wholeRequest
  cases hp : findDoubleCrlf (received d) with
  | none =>
    apply readRequest_none
    cases hread : readHeader [] d with
    | none => rfl
    | some stop =>
      have hfound := (readRequest_eq crates hread).1
      rw [hp] at hfound
      cases hfound
  | some p =>
    rw [Option.bind_some]
    split
    case isTrue hlate => exact readRequest_none (readHeader_late hp hlate)
    case isFalse hle =>
      have hlimit : ([] ++ received d).length ≤ 64 * 1024 ∨ p + 3 + 4096 ≤ 64 * 1024 := by
        obtain hlen | hend | hlate := h p hp
        · exact .inl hlen
        · exact .inr (by omega)
        · exact absurd hlate hle
      obtain ⟨stop, hread⟩ := readHeader_found rfl hp (fun r _ => r.le) hlimit
      obtain ⟨hfound, hreq⟩ := readRequest_eq crates hread
      obtain rfl := Option.some.inj (hp.symm.trans hfound)
      exact hreq

/-- A stream that is not stable comes in two ways, with a request and without. -/
lemma exists_deliveries (crates : Crates) (h : ¬ Stable stream) :
    ∃ d d', received d = stream ∧ received d' = stream
      ∧ (readRequest crates d).isSome = true ∧ readRequest crates d' = none := by
  obtain ⟨p, hp⟩ := not_forall.mp h
  obtain ⟨hp, hcut⟩ := Classical.not_imp.mp hp
  simp only [not_or, Nat.not_le, Nat.not_lt] at hcut
  obtain ⟨hlen, hstart, hle⟩ := hcut
  obtain ⟨stop, hread⟩ := readHeader_singly hp hle
  have hsize : ((stream.drop (p + 3)).take (64 * 1024 + 1 - (p + 3))).length
      = 64 * 1024 + 1 - (p + 3) := by
    rw [List.length_take, List.length_drop]
    omega
  have hfront : (stream.take (p + 3)).length = p + 3 := by
    rw [List.length_take]
    omega
  let lump : Read :=
    { bytes := (stream.drop (p + 3)).take (64 * 1024 + 1 - (p + 3))
      ne := fun hnil => by
        rw [hnil, List.length_nil] at hsize
        omega
      le := by
        rw [hsize]
        omega }
  refine ⟨singly stream,
    lumped (stream.take (p + 3)) lump ((stream.drop (p + 3)).drop (64 * 1024 + 1 - (p + 3))),
    received_singly, ?_, ?_, readRequest_none (readHeader_lumped ?_ ?_ ?_)⟩
  · rw [received_lumped, List.take_append_drop, List.take_append_drop]
  · rw [(readRequest_eq crates hread).2]
    rfl
  · omega
  · have hwhole : findDoubleCrlf (stream.take (p + 3) ++ stream.drop (p + 3)) = some p := by
      rw [List.take_append_drop]
      exact hp
    exact findDoubleCrlf_front hwhole (by omega)
  · rw [List.length_append, hfront, hsize]
    omega

/-- When the reads do not matter. All ways of delivering a stream in reads of up to 4096 bytes have one
result, whose body is the announced number of bytes behind the empty line or what there is of them, iff
the stream has at most 64 KiB or its header does not end in the last read below this limit. -/
theorem readRequest_stable_iff (crates : Crates) (stream : List UInt8) :
    ((∀ d d', received d = stream → received d' = stream →
        readRequest crates d = readRequest crates d')
      ∧ ∀ d req, received d = stream → readRequest crates d = some req →
        ∃ p, findDoubleCrlf stream = some p
          ∧ req.body = (stream.drop (p + 4)).take (headOf (stream.take p)).contentLength)
      ↔ Stable stream := by
  constructor
  · rintro ⟨hsame, -⟩
    -- two deliveries of an unstable stream disagree
    by_contra h
    obtain ⟨d, d', hd, hd', hsome, hnone⟩ := exists_deliveries crates h
    rw [hsame d d' hd hd', hnone] at hsome
    cases hsome
  · intro h
    constructor
    · intro d d' hd hd'
      rw [readRequest_stable (hd ▸ h), readRequest_stable (hd' ▸ h), hd, hd']
    · intro d req hd hreq
      cases hread : readHeader [] d with
      | none =>
        rw [readRequest_none hread] at hreq
        cases hreq
      | some stop =>
        obtain ⟨hp, heq⟩ := readRequest_eq crates hread
        rw [heq] at hreq
        cases hreq
        rw [hd] at hp
        refine ⟨stop.2.1, hp, ?_⟩
        rw [← hd]
        rfl

/-- A header of 64 KiB, without the empty line. -/
def longHeader : List (List UInt8) :=
  [utf8 "POST /api/uam HTTP/1.1", utf8 "Content-Length: 1", utf8 "X: " ++ List.replicate 65486 97]

/-- The request with this header and a body of one byte. -/
def longRequest : List UInt8 := crlf.intercalate longHeader ++ (doubleCrlf ++ [98])

/-- The last byte of the empty line, and the body with it. -/
def lastRead : Read := ⟨[10, 98], List.cons_ne_nil _ _, by decide⟩

/-- The request as it comes in with this read. -/
def lumpedRequest : List Read := lumped (crlf.intercalate longHeader ++ [13, 10, 13]) lastRead []

lemma length_longHeader : (crlf.intercalate longHeader).length = 65532 := by
  have hmethod : (utf8 "POST /api/uam HTTP/1.1").length = 22 := by decide
  have hlength : (utf8 "Content-Length: 1").length = 17 := by decide
  have hname : (utf8 "X: ").length = 3 := by decide
  rw [longHeader, List.intercalate_cons_cons, List.intercalate_cons_cons,
    List.intercalate_singleton]
  simp only [List.length_append, List.length_replicate, hmethod, hlength, hname]
  rfl

/-- The lines of the long header are header text. -/
lemma longHeader_text : ∀ line ∈ longHeader, HeaderText line := by
  intro line hline
  simp only [longHeader, List.mem_cons, List.not_mem_nil, or_false] at hline
  obtain rfl | rfl | rfl := hline
  · exact ⟨by decide, by decide, by decide⟩
  · exact ⟨by decide, by decide, by decide⟩
  · have hname : HeaderText (utf8 "X: ") := ⟨by decide, by decide, by decide⟩
    apply hname.append
    · exact fun h => absurd (List.eq_of_mem_replicate h) (by decide)
    · exact fun h => absurd (List.eq_of_mem_replicate h) (by decide)

/-- The header ends there. -/
lemma longRequest_position : findDoubleCrlf longRequest = some 65532 := by
  rw [← length_longHeader]
  exact position_header (List.cons_ne_nil _ _) longHeader_text

/-- Both are deliveries of the request. One by one its bytes are taken, and with the body in the read
of the last byte of the header they are refused. -/
theorem longRequest_segmented : received (singly longRequest) = longRequest
    ∧ received lumpedRequest = longRequest
    ∧ (readRequest idleCrates (singly longRequest)).isSome = true
    ∧ readRequest idleCrates lumpedRequest = none
    ∧ readRequest idleCrates (singly longRequest) ≠ readRequest idleCrates lumpedRequest := by
  have htaken : (readRequest idleCrates (singly longRequest)).isSome = true := by
    obtain ⟨stop, hread⟩ := readHeader_singly longRequest_position (by decide)
    rw [(readRequest_eq idleCrates hread).2]
    rfl
  have hlumped : received lumpedRequest = longRequest := by
    rw [lumpedRequest, received_lumped, List.append_assoc]
    rfl
  have hlen : (crlf.intercalate longHeader ++ [13, 10, 13]).length = 65535 := by
    rw [List.length_append, length_longHeader]
    rfl
  have hrefused : readRequest idleCrates lumpedRequest = none := by
    apply readRequest_none
    apply readHeader_lumped
    · rw [hlen]
      decide
    · have hwhole : findDoubleCrlf
          ((crlf.intercalate longHeader ++ [13, 10, 13]) ++ lastRead.bytes) = some 65532 := by
        rw [List.append_assoc]
        exact longRequest_position
      exact findDoubleCrlf_front hwhole (by omega)
    · rw [List.length_append, hlen]
      decide
  refine ⟨received_singly, hlumped, htaken, hrefused, fun hsame => ?_⟩
  rw [hsame, hrefused] at htaken
  cases htaken

end Waf.Admin
