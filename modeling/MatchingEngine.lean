import MatchingEngine.Core.Conservation
import MatchingEngine.Core.Mirror
import MatchingEngine.Core.PriceScale
import MatchingEngine.Core.EventGrammar
import MatchingEngine.Core.Turnover
import MatchingEngine.Core.Invisible
import MatchingEngine.App.Pipeline
import MatchingEngine.App.ScenarioGrammar
import MatchingEngine.App.TornLogs
import MatchingEngine.Core.Divergence
import MatchingEngine.Core.Rebuilding
import MatchingEngine.Projections.Refinement
import MatchingEngine.Projections.PublicBook
import MatchingEngine.Projections.Independence
import MatchingEngine.Wal.ParserAgreement
import MatchingEngine.Wal.TornSegment
import MatchingEngine.Wal.Corruption
import MatchingEngine.Wal.Acknowledged
import MatchingEngine.Wal.Positions
import MatchingEngine.Wal.ReadFaults
import MatchingEngine.Wal.FailClosed
import MatchingEngine.Wal.Polling
import MatchingEngine.Wal.HeaderLengths
