import TiyGate.Protocols.ChatCompletions.Response
import TiyGate.Protocols.Gemini.Response
import TiyGate.Protocols.Messages.Response
import TiyGate.Protocols.Responses.Response

/-!
# The codecs of the protocols

What each protocol provides for responses: complete ones and streams, in both
directions.
-/

namespace TiyGate.Protocols

open TiyGate.Core (IrResponse ProtocolSuite)
open Json (FloatText)

/-- The response half of a codec. -/
structure ResponseCodec where
  decodeResponse : Json → IrResponse
  encodeResponse : IrResponse → Json
  streamDecoder : Core.StreamDecoder
  streamEncoder : Core.StreamEncoder

/-- The codec of a protocol. -/
def responseCodec [FloatText] : ProtocolSuite → ResponseCodec
  | .openAiCompatible =>
      { decodeResponse := ChatCompletions.decodeResponse
        encodeResponse := ChatCompletions.encodeResponse
        streamDecoder := ChatCompletions.StreamDecoder.codec
        streamEncoder := ChatCompletions.StreamEncoder.codec }
  | .openAiResponses =>
      { decodeResponse := Responses.decodeResponse
        encodeResponse := Responses.encodeResponse
        streamDecoder := Responses.StreamDecoder.codec
        streamEncoder := Responses.StreamEncoder.codec }
  | .anthropicMessages =>
      { decodeResponse := Messages.decodeResponse
        encodeResponse := Messages.encodeResponse
        streamDecoder := Messages.StreamDecoder.codec
        streamEncoder := Messages.StreamEncoder.codec }
  | .googleGemini =>
      { decodeResponse := Gemini.decodeResponse
        encodeResponse := Gemini.encodeResponse
        streamDecoder := Gemini.StreamDecoder.codec
        streamEncoder := Gemini.StreamEncoder.codec }

end TiyGate.Protocols
