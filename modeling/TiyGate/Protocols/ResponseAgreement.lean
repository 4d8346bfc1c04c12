import TiyGate.Protocols.ChatCompletions.Streamed
import TiyGate.Protocols.Gemini.Streamed
import TiyGate.Protocols.Messages.Streamed
import TiyGate.Protocols.Responses.Streamed
import TiyGate.Protocols.UsageAgreement

/-!
# Streams and complete bodies

A response of any protocol in its two forms.  For each protocol this compares
what the stream decoder and the decoder of complete bodies make of it.
-/

namespace TiyGate.Protocols

open TiyGate.Core (Digest ProtocolSuite finishesOf)
open Json (FloatText mkObj)

/-- A response of one of the protocols, with the pieces in which it is
streamed. -/
inductive StreamedResponse [FloatText]
  | chat (response : ChatCompletions.StreamedResponse)
  | responses (response : Responses.StreamedResponse)
  | messages (response : Messages.StreamedResponse)
  | gemini (response : Gemini.StreamedResponse)

namespace StreamedResponse

variable [FloatText]

/-- The protocol of a response. -/
def suite : StreamedResponse → ProtocolSuite
  | chat _ => .openAiCompatible
  | responses _ => .openAiResponses
  | messages _ => .anthropicMessages
  | gemini _ => .googleGemini

/-- The complete form. -/
def body : StreamedResponse → Json
  | chat response => response.body
  | responses response => response.body
  | messages response => response.body
  | gemini response => response.body

/-- The streamed form. -/
def frames : StreamedResponse → List Frame
  | chat response => response.frames
  | responses response => response.frames
  | messages response => response.frames
  | gemini response => response.frames

/-- The lines are those of the streamed form. -/
def StreamedAs (response : StreamedResponse) (lines : List (List Char)) : Prop :=
  readFrames response.suite lines = response.frames

/-- The stop reasons on which the two decoders of a protocol agree. -/
def FinishAgrees : StreamedResponse → Prop
  | chat response => response.FinishAgrees
  | responses response => response.FinishAgrees
  | messages response => response.FinishAgrees
  | gemini response => response.FinishAgrees

/-- The content on which the two decoders of a protocol agree. -/
def ContentAgrees : StreamedResponse → Prop
  | chat response => response.ContentAgrees
  | responses response => response.ContentAgrees
  | messages _ => True
  | gemini response => response.ContentAgrees

/-- What the stream decoder makes of the frames. -/
def streamedParts : StreamedResponse → List Core.StreamPart
  | chat response =>
      Mealy.outputs ChatCompletions.StreamDecoder.feedFrame {} response.frames
  | responses response => Mealy.outputs Responses.StreamDecoder.feedFrame {} response.frames
  | messages response => Mealy.outputs Messages.StreamDecoder.feedFrame {} response.frames
  | gemini response => Mealy.outputs Gemini.StreamDecoder.feedFrame {} response.frames

variable {response : StreamedResponse} {lines : List (List Char)}

theorem feedAll_eq_streamedParts (streamed : response.StreamedAs lines) :
    (responseCodec response.suite).streamDecoder.feedAll lines = response.streamedParts := by
  cases response with
  | chat response =>
      apply (ChatCompletions.StreamDecoder.feedAll_eq lines).trans
      exact congrArg (Mealy.outputs ChatCompletions.StreamDecoder.feedFrame {}) streamed
  | responses response =>
      apply (Responses.StreamDecoder.feedAll_eq lines).trans
      exact congrArg (Mealy.outputs Responses.StreamDecoder.feedFrame {}) streamed
  | messages response =>
      apply (Messages.StreamDecoder.feedAll_eq lines).trans
      exact congrArg (Mealy.outputs Messages.StreamDecoder.feedFrame {}) streamed
  | gemini response =>
      apply (Gemini.StreamDecoder.feedAll_eq_frames lines).trans
      exact congrArg (Mealy.outputs Gemini.StreamDecoder.feedFrame {}) streamed

/-- The one finish of a stream is the finish reason of the complete body in
exactly these cases. -/
theorem finishesOf_feedAll_eq_iff (streamed : response.StreamedAs lines) :
    finishesOf ((responseCodec response.suite).streamDecoder.feedAll lines) =
        ((responseCodec response.suite).decodeResponse response.body).finishReason.toList ↔
      response.FinishAgrees := by
  rw [feedAll_eq_streamedParts streamed]
  cases response with
  | chat response => exact response.finish_agrees_iff
  | responses response => exact response.finish_agrees_iff
  | messages response => exact response.finish_agrees_iff
  | gemini response => exact response.finish_agrees_iff

/-- A stream says what the complete body says in exactly these cases. -/
theorem digest_feedAll_eq_iff (streamed : response.StreamedAs lines) :
    Digest.ofParts ((responseCodec response.suite).streamDecoder.feedAll lines) =
        Digest.ofContent ((responseCodec response.suite).decodeResponse response.body).content ↔
      response.ContentAgrees := by
  rw [feedAll_eq_streamedParts streamed]
  cases response with
  | chat response => exact response.content_agrees_iff
  | responses response => exact response.content_agrees_iff
  | messages response => exact iff_of_true response.content_agrees trivial
  | gemini response => exact response.content_agrees_iff

end StreamedResponse

/-- A message that says hello and stops for the given reason. -/
def sampleMessage (stopReason : String) : Messages.StreamedResponse :=
  ⟨"msg", [(0, .text ["hel", "lo"])], stopReason, .null⟩

/-- A chat response that says hello after some reasoning the upstream only
counts. -/
def sampleChat (reasoningTokens : UInt64) : ChatCompletions.StreamedResponse where
  id := "chat"
  pieces := [.text "hel", .text "lo"]
  reasoningField := .reasoningContent
  finishReason := "stop"
  usage := some (mkObj [("completion_tokens_details",
    mkObj [("reasoning_tokens", Json.ofU64 reasoningTokens)])])
  grounded := by simp [ChatCompletions.Grounded]
  distinct := List.nodup_nil
  named := by simp [ChatCompletions.Piece.head?]

/-- The lines that carry some frames. -/
def linesOf (frames : List Frame) : List (List Char) :=
  frames.map fun
    | .json event => @Core.Event.dataLine FloatText.integersOnly (.data event)
    | .done => "data: [DONE]".toList

/-- A finish that both decoders know. -/
theorem finishesOf_feedAll_endTurn :
    let codec := @responseCodec FloatText.integersOnly .anthropicMessages
    finishesOf (codec.streamDecoder.feedAll (linesOf (sampleMessage "end_turn").frames)) =
      (codec.decodeResponse (@Messages.StreamedResponse.body FloatText.integersOnly
        (sampleMessage "end_turn"))).finishReason.toList := by
  have streamed : @StreamedResponse.StreamedAs FloatText.integersOnly
      (@StreamedResponse.messages FloatText.integersOnly (sampleMessage "end_turn"))
      (linesOf (sampleMessage "end_turn").frames) := by
    unfold StreamedResponse.StreamedAs
    decide +kernel
  apply (@StreamedResponse.finishesOf_feedAll_eq_iff FloatText.integersOnly _ _ streamed).mpr
  change Messages.StreamedResponse.FinishAgrees (sampleMessage "end_turn")
  unfold Messages.StreamedResponse.FinishAgrees
  decide

/-- A refusal is a content filter in one form and an unknown reason in the
other. -/
theorem not_finishesOf_feedAll_refusal :
    ¬ ∀ (response : @StreamedResponse FloatText.integersOnly) (lines : List (List Char)),
      @StreamedResponse.StreamedAs FloatText.integersOnly response lines →
        finishesOf ((@responseCodec FloatText.integersOnly
          (@StreamedResponse.suite FloatText.integersOnly response)).streamDecoder.feedAll lines) =
          ((@responseCodec FloatText.integersOnly
            (@StreamedResponse.suite FloatText.integersOnly response)).decodeResponse
              (@StreamedResponse.body FloatText.integersOnly response)).finishReason.toList := by
  intro agree
  have streamed : @StreamedResponse.StreamedAs FloatText.integersOnly
      (@StreamedResponse.messages FloatText.integersOnly (sampleMessage "refusal"))
      (linesOf (sampleMessage "refusal").frames) := by
    unfold StreamedResponse.StreamedAs
    decide +kernel
  have same := agree _ _ streamed
  revert same
  decide +kernel

/-- Content that both decoders see. -/
theorem digest_feedAll_uncounted :
    let codec := @responseCodec FloatText.integersOnly .openAiCompatible
    @Digest.ofParts FloatText.integersOnly
        (codec.streamDecoder.feedAll (linesOf (sampleChat 0).frames)) =
      Digest.ofContent (codec.decodeResponse (sampleChat 0).body).content := by
  have streamed : @StreamedResponse.StreamedAs FloatText.integersOnly
      (@StreamedResponse.chat FloatText.integersOnly (sampleChat 0))
      (linesOf (sampleChat 0).frames) := by
    unfold StreamedResponse.StreamedAs
    decide +kernel
  apply (@StreamedResponse.digest_feedAll_eq_iff FloatText.integersOnly _ _ streamed).mpr
  change ChatCompletions.StreamedResponse.ContentAgrees (sampleChat 0)
  constructor
  · simp [sampleChat, ChatCompletions.Piece.head?]
  · change ChatCompletions.StreamedResponse.reasoningTokens (sampleChat 0) = 0
    decide +kernel

/-- Counted reasoning is text in one form and nothing in the other. -/
theorem not_digest_feedAll_counted :
    ¬ ∀ (response : @StreamedResponse FloatText.integersOnly) (lines : List (List Char)),
      @StreamedResponse.StreamedAs FloatText.integersOnly response lines →
        @Digest.ofParts FloatText.integersOnly ((@responseCodec FloatText.integersOnly
          (@StreamedResponse.suite FloatText.integersOnly response)).streamDecoder.feedAll lines) =
          Digest.ofContent ((@responseCodec FloatText.integersOnly
            (@StreamedResponse.suite FloatText.integersOnly response)).decodeResponse
              (@StreamedResponse.body FloatText.integersOnly response)).content := by
  intro agree
  have streamed : @StreamedResponse.StreamedAs FloatText.integersOnly
      (@StreamedResponse.chat FloatText.integersOnly (sampleChat 5))
      (linesOf (sampleChat 5).frames) := by
    unfold StreamedResponse.StreamedAs
    decide +kernel
  have same := agree _ _ streamed
  revert same
  decide +kernel

end TiyGate.Protocols
