import Srt2Dvbsub.Lib.Run
import Srt2Dvbsub.CLib.Tokenize
import Srt2Dvbsub.CLib.Scan
import Srt2Dvbsub.SrtParser.Cue
import Srt2Dvbsub.SrtParser.Parse
import Srt2Dvbsub.SrtParser.WithStats
import Srt2Dvbsub.Cli.ListParse
import Srt2Dvbsub.Cli.Options
import Srt2Dvbsub.Mux.Setup
import Srt2Dvbsub.Render.Color
import Srt2Dvbsub.Batch.Resolve
import Srt2Dvbsub.Mux.Demux
import Srt2Dvbsub.Lib.Refinement
import Srt2Dvbsub.RenderPool.KeySpec
import Srt2Dvbsub.RenderPool.Pool
import Srt2Dvbsub.RenderPool.Publish
import Srt2Dvbsub.Lib.Utf8
import Srt2Dvbsub.SrtParser.Utf8
import Srt2Dvbsub.SrtParser.HtmlToAss
import Srt2Dvbsub.Render.PangoMarkup
import Srt2Dvbsub.SrtParser.Normalize
import Srt2Dvbsub.Render.Placement
import Srt2Dvbsub.Mux.EncodeBuffer
import Srt2Dvbsub.Cli.PngPath
import Srt2Dvbsub.Lib.Loop
import Srt2Dvbsub.Cli.Help
import Srt2Dvbsub.SrtParser.Stats
import Srt2Dvbsub.Alloc.PoolAlloc
import Srt2Dvbsub.Batch.Mirror
import Srt2Dvbsub.Render.Cleanup
import Srt2Dvbsub.Lib.Scan
import Srt2Dvbsub.Render.Palette
import Srt2Dvbsub.Render.AssFrame
import Srt2Dvbsub.Render.AssComposite
import Srt2Dvbsub.Batch.StrVec
import Srt2Dvbsub.Batch.Cli
import Srt2Dvbsub.Batch.Driver
import Srt2Dvbsub.SrtParser.CueSize
import Srt2Dvbsub.Render.AssEvent
import Srt2Dvbsub.Render.BitmapBuffers
import Srt2Dvbsub.SrtParser.GapAnalysis
import Srt2Dvbsub.Render.AssAlignment
