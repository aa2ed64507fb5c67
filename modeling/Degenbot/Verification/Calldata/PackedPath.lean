import Degenbot.Verification.Calldata.RoundTrip

/-! # Packed paths

A packed path is a token followed by hops of a fee and a token, 23 bytes each. -/

namespace Degenbot.FrontrunCalldata

open Library Abi

variable {target : Target}

/-! ## Hops -/

/-- The bytes of a hop whose fee fits three bytes. -/
def hopBytes (hop : UInt32 × Address) : List UInt8 :=
  beBytes 3 hop.1.toNat ++ addressBytes hop.2.toNat

@[simp] theorem length_addressBytes (address : ℕ) : (addressBytes address).length = 20 :=
  length_beBytes 20 address

theorem length_hopBytes (hop : UInt32 × Address) : (hopBytes hop).length = 23 := by
  simp [hopBytes]

theorem encodeV3Hop_eq {fee : UInt32} (h : fee.toNat < 2 ^ 24) (token : Address) :
    encodeV3Hop fee token = .ok (hopBytes (fee, token)) := by
  have hfee : ¬ fee > 0x00ffffff := by
    rw [gt_iff_lt, UInt32.lt_iff_toNat_lt, Nat.not_lt]
    exact Nat.le_of_lt_succ h
  have hbytes := zeros_append_beBytes 1 (lt_of_lt_of_eq h (show 2 ^ 24 = 256 ^ 3 by norm_num))
  rw [encodeV3Hop, if_neg hfee, ← hbytes]
  rfl

theorem addressFromSlice_addressBytes (address : Address) :
    addressFromSlice (addressBytes address.toNat) = address := by
  have hvalue : beValue (addressBytes address.toNat) = address.toNat :=
    beValue_beBytes_of_lt (lt_of_lt_of_eq address.isLt (by norm_num))
  rw [addressFromSlice, hvalue, BitVec.ofNat_toNat, BitVec.setWidth_eq]

theorem addressBytes_addressFromSlice {bytes : List UInt8} (h : bytes.length = 20) :
    addressBytes (addressFromSlice bytes).toNat = bytes := by
  have hlt : beValue bytes < 2 ^ 160 := by
    have hvalue := beValue_lt bytes
    rw [h] at hvalue
    exact lt_of_lt_of_eq hvalue (by norm_num)
  have hbytes := beBytes_beValue bytes
  rw [h] at hbytes
  rw [addressFromSlice, BitVec.toNat_ofNat, Nat.mod_eq_of_lt hlt]
  exact hbytes

/-! ## Encoding, then parsing -/

/-- The path that a token and the hops behind it are packed into. -/
def packedPath (token : Address) (hops : List (UInt32 × Address)) : List UInt8 :=
  addressBytes token.toNat ++ hops.flatMap hopBytes

theorem length_packedPath (token : Address) (hops : List (UInt32 × Address)) :
    (packedPath token hops).length = 20 + hops.length * 23 := by
  have hhops : (hops.flatMap hopBytes).length = hops.length * 23 := by
    rw [List.length_flatMap]
    simp [length_hopBytes, List.map_const']
  rw [packedPath, List.length_append, length_addressBytes, hhops]

theorem encodeV3Path_eq {token : Address} {hops : List (UInt32 × Address)} (hne : hops ≠ [])
    (hfees : ∀ hop ∈ hops, hop.1.toNat < 2 ^ 24) :
    encodeV3Path target (token :: hops.map Prod.snd) (hops.map Prod.fst) =
      target.vec (packedPath token hops) := by
  have hzip : (hops.map Prod.fst).zip (hops.map Prod.snd) = hops :=
    (List.zip_of_prod rfl rfl).symm
  have hmap : hops.mapM (fun hop => encodeV3Hop hop.1 hop.2) = .ok (hops.map hopBytes) :=
    mapM_eq_ok fun hop hhop => encodeV3Hop_eq (hfees hop hhop) hop.2
  simp [encodeV3Path, hne, hzip, hmap, packedPath, List.flatMap_def]

section Parse

variable (token : Address) (hops : List (UInt32 × Address)) (index : Fin hops.length)

theorem segment_hop : SegmentAt (packedPath token hops) (20 + index * 23)
    (hopBytes (hops.get index)) := by
  have hhop := (SegmentAt.flatMap_get length_hopBytes hops index).skip (addressBytes token.toNat)
  rwa [length_addressBytes] at hhop

theorem slice_fee : ((packedPath token hops).drop (20 + index * 23)).take 3 =
    beBytes 3 (hops.get index).1.toNat := by
  have htake := (segment_hop token hops index).left.take_drop
  rwa [length_beBytes] at htake

theorem slice_token : ((packedPath token hops).drop (20 + index * 23 + 3)).take 20 =
    addressBytes (hops.get index).2.toNat := by
  have htake := (segment_hop token hops index).right.take_drop
  rwa [length_beBytes, length_addressBytes] at htake

end Parse

theorem parseV3Path_packedPath {token : Address} {hops : List (UInt32 × Address)}
    (hne : hops ≠ []) (hfees : ∀ hop ∈ hops, hop.1.toNat < 2 ^ 24) :
    parseV3Path (packedPath token hops) =
      .ok (token :: hops.map Prod.snd, hops.map Prod.fst) := by
  have hpos : 0 < hops.length := List.length_pos_iff.mpr hne
  have hlength := length_packedPath token hops
  have hlong : ¬ (packedPath token hops).length < v3HopBytes + v3TokenBytes := by
    simp only [v3HopBytes, v3TokenBytes, v3FeeBytes]
    omega
  have hwhole : ¬ ((packedPath token hops).length - v3TokenBytes) % v3HopBytes ≠ 0 := by
    simp only [v3HopBytes, v3TokenBytes, v3FeeBytes]
    omega
  have hcount : ((packedPath token hops).length - 20) / 23 = hops.length := by
    omega
  have hfirst : addressFromSlice ((packedPath token hops).take 20) = token := by
    rw [packedPath, List.take_left' (length_addressBytes _), addressFromSlice_addressBytes]
  have htokens : (List.range hops.length).map (fun index =>
      addressFromSlice (((packedPath token hops).drop (20 + index * 23 + 3)).take 20)) =
      hops.map Prod.snd := by
    refine List.ext_get (by simp) fun index hindex hindex' => ?_
    have hslice := slice_token token hops ⟨index, by simpa using hindex'⟩
    simp only [List.get_eq_getElem, List.getElem_map, List.getElem_range] at hslice ⊢
    rw [hslice, addressFromSlice_addressBytes]
  have hfees' : (List.range hops.length).map (fun index =>
      UInt32.ofNat (beValue (((packedPath token hops).drop (20 + index * 23)).take 3))) =
      hops.map Prod.fst := by
    refine List.ext_get (by simp) fun index hindex hindex' => ?_
    have hlt : index < hops.length := by simpa using hindex'
    have hslice := slice_fee token hops ⟨index, hlt⟩
    simp only [List.get_eq_getElem, List.getElem_map, List.getElem_range] at hslice ⊢
    have hfee : hops[index].1.toNat < 256 ^ 3 :=
      lt_of_lt_of_eq (hfees _ (List.getElem_mem hlt)) (by norm_num)
    rw [hslice, beValue_beBytes_of_lt hfee, UInt32.ofNat_toNat]
  rw [parseV3Path, if_neg hlong, if_neg hwhole]
  simp only [v3TokenBytes, v3HopBytes, v3FeeBytes, Nat.reduceAdd, hcount, hfirst, htokens, hfees']

/-! ## Parsing, then encoding -/

theorem fee_lt {bytes : List UInt8} (h : bytes.length = 3) : beValue bytes < 2 ^ 24 := by
  have hvalue := beValue_lt bytes
  rw [h] at hvalue
  exact lt_of_lt_of_eq hvalue (by norm_num)

/-- Bytes that split into hops. -/
theorem exists_hops {count : ℕ} {bytes : List UInt8} (h : bytes.length = count * 23) :
    ∃ hops : List (UInt32 × Address), hops.length = count ∧
      (∀ hop ∈ hops, hop.1.toNat < 2 ^ 24) ∧ bytes = hops.flatMap hopBytes := by
  induction count generalizing bytes with
  | zero => exact ⟨[], rfl, by simp, List.length_eq_zero_iff.mp (by omega)⟩
  | succ count ih =>
      have hfee : (bytes.take 3).length = 3 := by
        rw [List.length_take]
        omega
      have htoken : ((bytes.drop 3).take 20).length = 20 := by
        rw [List.length_take, List.length_drop]
        omega
      have hrest : (bytes.drop 23).length = count * 23 := by
        rw [List.length_drop]
        omega
      obtain ⟨hops, hcount, hfees, hbytes⟩ := ih hrest
      have htoNat : (UInt32.ofNat (beValue (bytes.take 3))).toNat = beValue (bytes.take 3) := by
        rw [UInt32.toNat_ofNat']
        exact Nat.mod_eq_of_lt ((fee_lt hfee).trans (by norm_num))
      have hbe := beBytes_beValue (bytes.take 3)
      rw [hfee] at hbe
      refine ⟨(UInt32.ofNat (beValue (bytes.take 3)), addressFromSlice ((bytes.drop 3).take 20)) ::
        hops, by rw [List.length_cons, hcount], ?_, ?_⟩
      · intro hop hhop
        rcases List.mem_cons.mp hhop with rfl | hhop
        · rw [htoNat]
          exact fee_lt hfee
        · exact hfees hop hhop
      · have hdrop : bytes.drop 23 = (bytes.drop 3).drop 20 := by rw [List.drop_drop]
        rw [List.flatMap_cons, ← hbytes, hopBytes, htoNat, hbe,
          addressBytes_addressFromSlice htoken, hdrop, List.append_assoc, List.take_append_drop,
          List.take_append_drop]

theorem exists_packedPath {count : ℕ} {path : List UInt8} (h : path.length = 20 + count * 23) :
    ∃ token hops, hops.length = count ∧ (∀ hop ∈ hops, hop.1.toNat < 2 ^ 24) ∧
      path = packedPath token hops := by
  have htoken : (path.take 20).length = 20 := by
    rw [List.length_take]
    omega
  have hrest : (path.drop 20).length = count * 23 := by
    rw [List.length_drop]
    omega
  obtain ⟨hops, hcount, hfees, hbytes⟩ := exists_hops hrest
  refine ⟨addressFromSlice (path.take 20), hops, hcount, hfees, ?_⟩
  rw [packedPath, ← hbytes, addressBytes_addressFromSlice htoken, List.take_append_drop]

/-! ## All shapes -/

/-- The encoder returns data that decodes to `value`, unless the buffer cannot be allocated. -/
def RoundTrips {ε α : Type} (encoded : Except EncodeFailure (List UInt8))
    (decode : List UInt8 → Except ε α) (value : α) : Prop :=
  encoded = .error .capacityOverflow ∨ ∃ data, encoded = .ok data ∧ decode data = .ok value

theorem RoundTrips.of_vec {ε α : Type} {encoded : Except EncodeFailure (List UInt8)}
    {bytes : List UInt8} {decode : List UInt8 → Except ε α} {value : α}
    (hvec : encoded = target.vec bytes)
    (h : ∀ data, encoded = .ok data → decode data = .ok value) :
    RoundTrips encoded decode value := by
  by_cases hfits : bytes.length ≤ target.isizeMax
  · have hok : encoded = .ok bytes := hvec.trans (if_pos hfits)
    exact .inr ⟨bytes, hok, h bytes hok⟩
  · exact .inl (hvec.trans (if_neg hfits))

theorem roundTrips_encodeV2Swap {params : V2SwapExactInParams} (hpath : 2 ≤ params.path.length) :
    RoundTrips (encodeV2SwapExactTokensForTokens target params.amountIn params.amountOutMin
      params.path params.toAddress params.deadline)
      (decodeV2SwapExactTokensForTokens target) params := by
  have hlong : ¬ params.path.length < 2 := by omega
  exact .of_vec (if_neg hlong) fun _ => decode_encodeV2SwapExactTokensForTokens

theorem roundTrips_encodeV3Path {tokens : List Address} {fees : List UInt32} (hne : fees ≠ [])
    (hlength : tokens.length = fees.length + 1) (hfees : ∀ fee ∈ fees, fee.toNat < 2 ^ 24) :
    RoundTrips (encodeV3Path target tokens fees) parseV3Path (tokens, fees) := by
  obtain ⟨token, tokens, rfl⟩ := List.exists_cons_of_length_eq_add_one hlength
  have hlength' : tokens.length = fees.length := by simpa using hlength
  obtain ⟨hops, rfl, rfl⟩ : ∃ hops : List (UInt32 × Address),
      hops.map Prod.fst = fees ∧ hops.map Prod.snd = tokens :=
    ⟨fees.zip tokens, List.map_fst_zip hlength'.ge, List.map_snd_zip hlength'.le⟩
  have hne' : hops ≠ [] := by simpa using hne
  have hfees' : ∀ hop ∈ hops, hop.1.toNat < 2 ^ 24 :=
    fun hop hhop => hfees hop.1 (List.mem_map_of_mem hhop)
  refine .of_vec (encodeV3Path_eq hne' hfees') fun data hdata => ?_
  rw [encodeV3Path_eq hne' hfees'] at hdata
  rw [(vec_eq_ok.mp hdata).1]
  exact parseV3Path_packedPath hne' hfees'

theorem encodeV3Path_parseV3Path {path : List UInt8} (hfits : path.length ≤ target.isizeMax)
    (hpath : ∃ hopCount > 0, path.length = 20 + hopCount * 23) :
    ∃ tokens fees, parseV3Path path = .ok (tokens, fees) ∧
      encodeV3Path target tokens fees = .ok path := by
  obtain ⟨hopCount, hpos, hlength⟩ := hpath
  obtain ⟨token, hops, hcount, hfees, hpacked⟩ := exists_packedPath hlength
  have hne : hops ≠ [] := by
    rintro rfl
    simp only [List.length_nil] at hcount
    omega
  refine ⟨token :: hops.map Prod.snd, hops.map Prod.fst, ?_, ?_⟩
  · rw [hpacked]
    exact parseV3Path_packedPath hne hfees
  · rw [encodeV3Path_eq hne hfees, ← hpacked]
    exact if_pos hfits

/-- What the codecs recover. -/
structure CodecsRoundTrip (target : Target) : Prop where
  v2Swap : ∀ params : V2SwapExactInParams, 2 ≤ params.path.length →
    RoundTrips (encodeV2SwapExactTokensForTokens target params.amountIn params.amountOutMin
      params.path params.toAddress params.deadline)
      (decodeV2SwapExactTokensForTokens target) params
  v3ExactInputSingle : ∀ params : V3ExactInputSingleParams, params.fee.toNat < 2 ^ 24 →
    params.sqrtPriceLimitX96.toNat < 2 ^ 160 →
    RoundTrips (encodeV3ExactInputSingle target params) (decodeV3ExactInputSingle target) params
  v3ExactInput : ∀ params : V3ExactInputParams,
    RoundTrips (encodeV3ExactInput target params) (decodeV3ExactInput target) params
  v3ExactInput02 : ∀ path recipient amountIn amountOutMinimum,
    RoundTrips (encodeV3ExactInput02 target path recipient amountIn amountOutMinimum)
      (decodeV3ExactInput target)
      { path, recipient, deadline := 0, amountIn, amountOutMinimum }
  aaveLiquidation : ∀ params : AaveLiquidationCallParams,
    RoundTrips (encodeAaveV3LiquidationCall target params.collateralAsset params.debtAsset
      params.user params.debtToCover params.receiveAToken)
      (decodeAaveV3LiquidationCall target) params
  urExecute : ∀ commands inputs deadline,
    RoundTrips (encodeUrExecute target commands inputs deadline) (decodeUrExecute target)
      (commandSteps commands inputs, deadline)
  urExecuteNoDeadline : ∀ commands inputs,
    RoundTrips (encodeUrExecuteNoDeadline target commands inputs) (decodeUrExecute target)
      (commandSteps commands inputs, 0)
  parse_encode : ∀ tokens fees, fees ≠ [] → tokens.length = fees.length + 1 →
    (∀ fee ∈ fees, fee.toNat < 2 ^ 24) →
    RoundTrips (encodeV3Path target tokens fees) parseV3Path (tokens, fees)
  encode_parse : ∀ path : List UInt8, path.length ≤ target.isizeMax →
    (∃ hopCount > 0, path.length = 20 + hopCount * 23) →
    ∃ tokens fees, parseV3Path path = .ok (tokens, fees) ∧
      encodeV3Path target tokens fees = .ok path

theorem codecs_roundTrip (target : Target) : CodecsRoundTrip target where
  v2Swap _ hpath := roundTrips_encodeV2Swap hpath
  v3ExactInputSingle _ hfee hlimit :=
    .of_vec rfl fun _ => decode_encodeV3ExactInputSingle hfee hlimit
  v3ExactInput _ := .of_vec rfl fun _ => decode_encodeV3ExactInput
  v3ExactInput02 _ _ _ _ := .of_vec rfl fun _ => decode_encodeV3ExactInput02
  aaveLiquidation _ := .of_vec rfl fun _ => decode_encodeAaveV3LiquidationCall
  urExecute _ _ _ := .of_vec rfl fun _ => decode_encodeUrExecute
  urExecuteNoDeadline _ _ := .of_vec rfl fun _ => decode_encodeUrExecuteNoDeadline
  parse_encode _ _ hne hlength hfees := roundTrips_encodeV3Path hne hlength hfees
  encode_parse _ hfits hpath := encodeV3Path_parseV3Path hfits hpath

/-- Two commands of unknown kind decode alike, and a path of one token is rejected. -/
theorem urExecute_forgets_commands :
    (∃ data data', encodeUrExecute .host64 [0x06] [[]] 0 = .ok data ∧
      encodeUrExecute .host64 [0x07] [[]] 0 = .ok data' ∧
      decodeUrExecute .host64 data = decodeUrExecute .host64 data') ∧
    encodeV2SwapExactTokensForTokens .host64 0 0 [1] 0 0 = .error (.path .emptyPath) := by
  have hok {encoded : Except EncodeFailure (List UInt8)} (h : encoded.isOk = true) :
      ∃ data, encoded = .ok data := by
    cases encoded with
    | error failure => cases h
    | ok data => exact ⟨data, rfl⟩
  obtain ⟨data, hfirst⟩ := hok (show (encodeUrExecute .host64 [0x06] [[]] 0).isOk by decide +kernel)
  obtain ⟨data', hsecond⟩ :=
    hok (show (encodeUrExecute .host64 [0x07] [[]] 0).isOk by decide +kernel)
  refine ⟨⟨data, data', hfirst, hsecond, ?_⟩, rfl⟩
  rw [decode_encodeUrExecute hfirst, decode_encodeUrExecute hsecond]
  rfl

end Degenbot.FrontrunCalldata
